import Polyadic.Disk
import Polyadic.Session.Basic

/-!
# Session programs

A program is a list of steps, some with a body of steps of their own. It runs on a machine: a session,
the disk on which passes may write files, and the sinks that earlier passes have given back. A step
that fails ends the body it is in and so fails the step around it, unless that step is an attempt.
-/

namespace Polyadic.Session

/-- What a pass writes to. -/
inductive Target where
  | memory (sink : Sink)
  | file (path : String)

/-- A step of a program. -/
inductive Step where
  /-- Starts a pass. -/
  | begin (target : Target)
  /-- Ends the pass. -/
  | finish
  /-- Emits a statement. -/
  | statement (template terminator : String)
  /-- Opens a block and leaves it pending. -/
  | openBlock (header suffix : String)
  /-- Closes the pending block. -/
  | closeBlock
  /-- Emits a block without a body. -/
  | emptyBlock (header : String)
  /-- Resolves a text without emitting it. -/
  | resolve (template : String)
  /-- Emits a block around a body. -/
  | block (header suffix : String) (body : List Step)
  /-- Runs a body with one more scope. -/
  | scoped (scope : Template.Scope) (body : List Step)
  /-- Runs a body and catches its failure. -/
  | attempt (body : List Step)
  /-- Runs a body as one step. -/
  | run (body : List Step)
  /-- Says something and does nothing. -/
  | note (text : String)

instance : Inhabited Step := ⟨.note ""⟩

/-- A program is a list of steps. -/
abbrev Program := List Step

/-- What a step answers. -/
inductive Answer where
  | done
  | text (text : String)
  | content (bytes : ByteArray)
  /-- What an attempt has caught, if anything. -/
  | caught (error : Option Error)

/-- What programs run on: the session, the disk, the file of the current pass, and the sinks of ended
passes, latest first. -/
structure Machine where
  session : Session
  disk : Disk := .empty
  output : Option Disk.Location := none
  released : List Sink := []

namespace Machine

/-- A machine with a fresh session. -/
def ofOptions (options : Options) (disk : Disk := .empty) : Machine where
  session := .ofOptions options
  disk

/-- An operation of the machine; when it fails, what it has done so far stays done. -/
abbrev Action := EStateM Error Machine

/-- Runs an operation of the session. -/
def onSession (act : Session.Action α) : Action α := fun ⟨session, disk, output, released⟩ =>
  match act session with
  | .ok a session => .ok a ⟨session, disk, output, released⟩
  | .error e session => .error e ⟨session, disk, output, released⟩

/-- Runs an operation of the disk; whatever the disk refuses is a failure to write. -/
def onDisk (act : Disk.Action α) : Action α := fun ⟨session, disk, output, released⟩ =>
  match act disk with
  | .ok a disk => .ok a ⟨session, disk, output, released⟩
  | .error _ disk => .error .write ⟨session, disk, output, released⟩

/-- Starts a pass; a file is made empty first, with the directories it lies in. -/
def begin : Target → Action Unit
  | .memory sink => do
    onSession (Session.Action.begin sink)
    modify ({ · with output := none })
  | .file path => do
    if (← get).session.isActive then throw .alreadyActive
    onDisk (Disk.makeParent path)
    let location ← onDisk (Disk.createFile path)
    onSession (Session.Action.begin {})
    modify ({ · with output := some location })

/-- Puts the content of a pass into its file, if it has one. -/
def store (sink : Sink) (machine : Machine) : Machine :=
  match machine.output with
  | none => machine
  | some location => { machine with disk := machine.disk.set location (.file sink.content) }

/-- Ends the pass. The sink is released even if it cannot be flushed. -/
def finish : Action Sink := do
  onSession Session.Action.wrapUp
  match (← get).session.writer.sink with
  | none => throw .noSink
  | some sink =>
    modify fun machine => { machine with released := sink :: machine.released }
    let sink ← onSession (Session.Action.ofWriter Writer.detach)
    modify (store sink)
    pure sink

/-- The contents of all sinks begun so far, in order. -/
def sinks (machine : Machine) : List ByteArray :=
  (machine.released.reverse ++ machine.session.writer.sink.toList).map Sink.content

/-- The disk after the machine is given up: a pass still going on leaves in its file what it wrote. -/
def finalDisk (machine : Machine) : Disk :=
  match machine.session.writer.sink with
  | none => machine.disk
  | some sink => (store sink machine).disk

/-- Runs a body, and one operation after it when it succeeds or another when it fails. -/
def around (body : Action α) (onSuccess onFailure : Action Unit) : Action α := fun machine =>
  match body machine with
  | .ok a machine =>
    match onSuccess machine with
    | .ok () machine => .ok a machine
    | .error e machine => .error e machine
  | .error e machine =>
    match onFailure machine with
    | .ok () machine => .error e machine
    | .error e machine => .error e machine

/-- Runs a body and answers what it failed with. -/
def attempt (body : Action Unit) : Action (Option Error) := fun machine =>
  match body machine with
  | .ok () machine => .ok none machine
  | .error e machine => .ok (some e) machine

/-- Opens a block and enters it. -/
def enterBlock (header suffix : String) : Action Block :=
  onSession do
    Session.Action.openBlock header suffix
    Session.Action.enter

/-- Runs the body of an entered block. A body that fails leaves its region without closing the block. -/
def inside (block : Block) (body : Action α) : Action α :=
  around body (onSession (Session.Action.complete block)) (onSession (Session.Action.abandon block))

/-- Runs a body with one more scope, which is dropped in any case. -/
def inScope (scope : Template.Scope) (body : Action α) : Action α := do
  onSession (Session.Action.pushScope scope)
  around body (onSession Session.Action.popScope) (onSession Session.Action.popScope)

end Machine

open Machine in
mutual

/-- Runs one step. -/
def Step.exec : Step → Machine.Action Answer
  | .begin target => do
    Machine.begin target
    pure .done
  | .finish => do
    let sink ← Machine.finish
    pure (.content sink.content)
  | .statement template terminator => do
    onSession (Action.statement template terminator)
    pure .done
  | .openBlock header suffix => do
    onSession (Action.openBlock header suffix)
    pure .done
  | .closeBlock => do
    onSession Action.closeBlock
    pure .done
  | .emptyBlock header => do
    let block ← enterBlock header ""
    inside block (pure .done)
  | .resolve template => do
    let text ← onSession (Action.resolve template)
    pure (.text text)
  | .block header suffix body => do
    let block ← enterBlock header suffix
    inside block (Step.execAll body)
    pure .done
  | .scoped scope body => do
    inScope scope (Step.execAll body)
    pure .done
  | .attempt body => do
    let error ← Machine.attempt (Step.execAll body)
    pure (.caught error)
  | .run body => do
    Step.execAll body
    pure .done
  | .note text => pure (.text text)

/-- Runs steps one after the other up to the first that fails. -/
def Step.execAll : List Step → Machine.Action Unit
  | [] => pure ()
  | step :: steps => do
    let _ ← Step.exec step
    Step.execAll steps

end

/-- Runs a whole program as one pass onto a sink. -/
def Machine.pass (sink : Sink) (program : Program) : Machine.Action Sink := do
  Machine.begin (.memory sink)
  Step.execAll program
  Machine.finish

/-- Runs a whole program as one pass into memory and answers its text. -/
def render (options : Options) (program : Program) : Except Error String :=
  match Machine.pass {} program (.ofOptions options) with
  | .error e _ => .error e
  | .ok sink _ =>
    match String.fromUTF8? sink.content with
    | some text => .ok text
    | none => .error .write

end Polyadic.Session
