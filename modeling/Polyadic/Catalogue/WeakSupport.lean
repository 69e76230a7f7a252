import Polyadic.Catalogue.Members

/-!
# The base class of weak mappings

Weak mappings register in a shared list, which a thread sweeps from time to time so that each of them
can drop the entries whose values are gone.
-/

namespace Polyadic.Catalogue

open Session (Step)

/-- The `using` directives of the support file. -/
def supportNamespaces : List String :=
  ["System", "System.Collections.Generic", "System.Linq", "System.Text", "System.Threading"]

/-- How many milliseconds pass between two sweeps. -/
def sweepInterval : Nat := 30

/-- The list of live mappings, made when it is first asked for. -/
def containerList : Step :=
  block "protected static List<WeakReference> Containers"
    [block "get"
      [block "if(containers == null)" [line "containers = new List<WeakReference>()"],
       line "return containers"]]

/-- Registration of a mapping, which starts the thread when it is the first. -/
def registration : Step :=
  block "protected static void AddToCleanupList(WeakMapping container)"
    [block "lock(Containers)"
      [line "Containers.Add(new WeakReference(container))",
       block "if(cleanupThread == null)"
        [line "cleanupThread = new Thread(CleanupLoop)",
         line "cleanupThread.Priority = ThreadPriority.BelowNormal",
         line "cleanupThread.IsBackground = true",
         line "cleanupThread.Start()"]]]

/-- The loop of the thread. -/
def sweepLoop : Step :=
  block "static void CleanupLoop()"
    [line "WeakMapping container",
     block "while(true)"
      [line s!"Thread.Sleep({sweepInterval})",
       line "int k = 0",
       block "while(k < containers.Count)"
        [block "lock(containers)"
          [line "container = containers[k].Target as WeakMapping",
           block "if(container == null)" [line "containers.RemoveAt(k)"],
           block "else"
            [line "container.Cleanup()",
             line "k++"]]]]]

/-- The class that weak mappings derive from. -/
def weakBase : Step :=
  block "public abstract class WeakMapping"
    [line "protected abstract void Cleanup()",
     line "static Thread cleanupThread",
     line "static List<WeakReference> containers = null",
     containerList,
     registration,
     sweepLoop]

end Polyadic.Catalogue
