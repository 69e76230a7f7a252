/-!
# Sinks

A sink takes the bytes of a pass. It may be too small for them, in which case it keeps what fits and
refuses the rest, and it may refuse to be flushed at the end.
-/

namespace Polyadic.Session

/-- Where the bytes of a pass go. -/
structure Sink where
  content : ByteArray := .empty
  /-- How many bytes the sink takes in all; `none` is without limit. -/
  capacity : Option Nat := none
  flushFails : Bool := false

namespace Sink

/-- Takes the bytes of a text as far as they fit; tells whether all of them did. -/
def write (sink : Sink) (text : String) : Bool × Sink :=
  let bytes := text.toUTF8
  match sink with
  | ⟨content, none, flushFails⟩ => (true, ⟨content ++ bytes, none, flushFails⟩)
  | ⟨content, some capacity, flushFails⟩ =>
    let room := capacity - content.size
    (bytes.size ≤ room, ⟨content ++ bytes.extract 0 room, some capacity, flushFails⟩)

/-- Writes texts one after the other up to the first that does not fit. -/
def writeAll : Sink → List String → Bool × Sink
  | sink, [] => (true, sink)
  | sink, text :: texts =>
    match sink.write text with
    | (true, sink) => writeAll sink texts
    | (false, sink) => (false, sink)

end Sink

end Polyadic.Session
