import Golden.Cause
import Golden.Text.Utf8

/-!
# Golden.Sink — writers that may refuse

What a run prints goes into a sink.  Most sinks take everything; one of limited room takes what fits
and refuses the rest.  And any single write may be broken off for a reason that lies outside, after
which the sink may well go on taking what it is given.

A refused write still leaves its beginning behind.  The empty text is never refused, since there is
nothing to write.
-/

namespace Golden

/-- How a single write is broken off: after so many bytes, and why. -/
structure Interruption where
  taken : Nat
  cause : Cause
  deriving DecidableEq, Repr

/-- Everything written so far, and how what is still to come will be received. -/
structure Sink where
  written : List UInt8
  /-- How many more bytes there is room for. -/
  room : Option Nat
  /-- Which of the next writes are broken off, one after the other. -/
  interruptions : List (Option Interruption)
  deriving DecidableEq, Repr

namespace Sink

/-- A sink that takes everything. -/
def unlimited : Sink := ⟨[], none, []⟩

/-- A sink for a limited number of bytes. -/
def limited (room : Nat) : Sink := ⟨[], some room, []⟩

/-- Take as many bytes as there is room for; the sink after that, and the cause if they did not
fit. -/
def take (s : Sink) (bytes : List UInt8) : Sink × Option Cause :=
  match s.room with
  | none => ({ s with written := s.written ++ bytes }, none)
  | some room =>
    ({ s with written := s.written ++ bytes.take room, room := some (room - bytes.length) },
      if bytes.length ≤ room then none else some .sinkFull)

/-- Write a text; the sink after it, and the cause if it was refused. -/
def write (s : Sink) (text : String) : Sink × Option Cause :=
  let bytes := bytesOfText text
  if bytes.isEmpty then (s, none)
  else
    match s.interruptions with
    | [] => s.take bytes
    | none :: later => { s with interruptions := later }.take bytes
    | some interruption :: later =>
      let after := { s with interruptions := later }.take (bytes.take interruption.taken)
      (after.1, some interruption.cause)

/-- Write several texts, up to the first that is refused. -/
def writeAll (s : Sink) : List String → Sink × Option Cause
  | [] => (s, none)
  | text :: rest =>
    match s.write text with
    | (after, none) => after.writeAll rest
    | (after, some cause) => (after, some cause)

/-- What was written, as text. -/
def text (s : Sink) : String := textOfBytes s.written

end Sink

end Golden
