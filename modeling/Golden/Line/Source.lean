import Golden.Cause
import Golden.Text.Utf8

/-!
# Golden.Line.Source — where lines come from

Captured output is text held in memory; an expectation file is a byte stream that arrives in pieces.
Both are cut into lines, and both let a final line break count as the start of one more, empty,
line.

## Text

A text source is the text that is left, or nothing once the last line has been taken.  Its lines
come without their newline.

## Streams

A stream is the list of what its future reads will deliver (`Delivery`): bytes, an interruption that
is simply tried again, or a failure.  Reading a line collects bytes up to and including a newline,
across any number of deliveries.  A stream does not know that it has ended until a read comes up
short, that is, until a line arrives without its newline; a failure counts as such an end, and the
bytes that came before it are still delivered.  The text of a line is decoded on its own.

`Source.left` bounds how many more lines a source can give: it is what makes every loop over a
source end (`left_read_lt`).
-/

namespace Golden

/-- One outcome of asking a byte stream for more. -/
inductive Delivery
  | bytes (content : List UInt8)
  | interrupted
  | failure (cause : Cause)
  deriving DecidableEq, Repr

/-- What one read of a line brought: its bytes, what is still to come, and the failure that cut it
off, if one did. -/
structure RawLine where
  bytes : List UInt8
  rest : List Delivery
  failure : Option Cause
  deriving DecidableEq, Repr

namespace Delivery

/-- A byte sequence cut after its first newline; `none` when it has no newline. -/
def cutAfterNewline : List UInt8 → Option (List UInt8 × List UInt8)
  | [] => none
  | b :: rest =>
    if b = Text.Utf8.newline then some ([b], rest)
    else (cutAfterNewline rest).map fun (line, later) => (b :: line, later)

/-- Read up to and including the next newline, the end of the stream, or a failure. -/
def readLine : List Delivery → RawLine
  | [] => ⟨[], [], none⟩
  | .interrupted :: rest => readLine rest
  | .failure cause :: rest => ⟨[], rest, some cause⟩
  | .bytes content :: rest =>
    match cutAfterNewline content with
    | some (line, later) => ⟨line, .bytes later :: rest, none⟩
    | none =>
      let next := readLine rest
      { next with bytes := content ++ next.bytes }

/-- How many newlines the deliveries hold. -/
def newlines : List Delivery → Nat
  | [] => 0
  | .bytes content :: rest => content.count Text.Utf8.newline + newlines rest
  | _ :: rest => newlines rest

theorem count_of_cutAfterNewline_eq_none :
    ∀ {content : List UInt8}, cutAfterNewline content = none →
      content.count Text.Utf8.newline = 0
  | [], _ => rfl
  | b :: rest, h => by
      unfold cutAfterNewline at h
      split at h
      · cases h
      · rename_i hb
        simp [hb, count_of_cutAfterNewline_eq_none (Option.map_eq_none_iff.mp h)]

theorem count_of_cutAfterNewline_eq_some :
    ∀ {content line later : List UInt8}, cutAfterNewline content = some (line, later) →
      content.count Text.Utf8.newline = later.count Text.Utf8.newline + 1
  | [], _, _, h => by cases h
  | b :: rest, line, later, h => by
      unfold cutAfterNewline at h
      split at h
      · rename_i hb
        cases h
        simp [hb]
      · rename_i hb
        obtain ⟨⟨line', later'⟩, h', hp⟩ := Option.map_eq_some_iff.mp h
        cases hp
        simp [hb, count_of_cutAfterNewline_eq_some h']

theorem getLast?_of_cutAfterNewline_eq_some :
    ∀ {content line later : List UInt8}, cutAfterNewline content = some (line, later) →
      line.getLast? = some Text.Utf8.newline
  | [], _, _, h => by cases h
  | b :: rest, line, later, h => by
      unfold cutAfterNewline at h
      split at h
      · rename_i hb
        cases h
        simp [hb]
      · obtain ⟨⟨line', later'⟩, h', hp⟩ := Option.map_eq_some_iff.mp h
        cases hp
        rw [List.getLast?_cons, getLast?_of_cutAfterNewline_eq_some h']
        rfl

/-- A line that ends in a newline used one up. -/
theorem newlines_readLine :
    ∀ {deliveries : List Delivery},
      (readLine deliveries).bytes.getLast? = some Text.Utf8.newline →
      newlines (readLine deliveries).rest < newlines deliveries
  | [], h => by simp [readLine] at h
  | .interrupted :: rest, h => by
      simpa [readLine, newlines] using @newlines_readLine rest h
  | .failure _ :: _, h => by simp [readLine] at h
  | .bytes content :: rest, h => by
      unfold readLine at h ⊢
      split at h
      · rename_i line later hc
        simp only [newlines, count_of_cutAfterNewline_eq_some hc]
        omega
      · rename_i hc
        simp only [newlines, count_of_cutAfterNewline_eq_none hc]
        have hrest : (readLine rest).bytes.getLast? = some Text.Utf8.newline := by
          cases hb : (readLine rest).bytes with
          | nil =>
              simp only [hb, List.append_nil] at h
              have hmem := List.mem_of_getLast? h
              exact absurd (List.count_pos_iff.mpr hmem)
                (by simp [count_of_cutAfterNewline_eq_none hc])
          | cons b bs => simpa [hb, List.getLast?_append] using h
        have := newlines_readLine hrest
        omega

end Delivery

/-- Something lines are pulled from, one at a time. -/
inductive Source
  /-- The text not yet cut into lines; `none` once the last line is gone. -/
  | text (rest : Option (List Char))
  /-- The reads still to come, and whether a read has come up short. -/
  | stream (feed : List Delivery) (ended : Bool)
  deriving DecidableEq, Repr

namespace Source

def ofText (text : String) : Source := .text (some text.toList)

def ofDeliveries (feed : List Delivery) : Source := .stream feed false

/-- Whether another read can produce a line. -/
def hasMore : Source → Bool
  | .text rest => rest.isSome
  | .stream _ ended => !ended

/-- One line as it was read, the source after it, and the failure that ended it, if one did. -/
structure Reading where
  line : List Char
  after : Source
  failure : Option Cause

/-- Read the next line.  A text source gives it without its newline, a stream with it. -/
def read : Source → Reading
  | .text none => ⟨[], .text none, none⟩
  | .text (some rest) =>
    match rest.dropWhile (· != '\n') with
    | [] => ⟨rest, .text none, none⟩
    | _ :: later => ⟨rest.takeWhile (· != '\n'), .text (some later), none⟩
  | .stream feed ended =>
    let raw := Delivery.readLine feed
    let short := raw.bytes.getLast? != some Text.Utf8.newline
    ⟨Text.Utf8.decodeLossy raw.bytes,
      .stream raw.rest (ended || short || raw.failure.isSome), raw.failure⟩

/-- An upper bound on the number of lines still to come. -/
def left : Source → Nat
  | .text none => 0
  | .text (some rest) => rest.count '\n' + 1
  | .stream _ true => 0
  | .stream feed false => Delivery.newlines feed + 1

theorem left_read_lt : ∀ {source : Source}, source.hasMore = true →
    source.read.after.left < source.left
  | .text none, h => by cases h
  | .text (some rest), _ => by
      simp only [read]
      split
      · simp [left]
      · rename_i c later hd
        have hsplit : rest.takeWhile (· != '\n') ++ rest.dropWhile (· != '\n') = rest :=
          List.takeWhile_append_dropWhile
        have hc : c = '\n' := by
          have := List.head?_dropWhile_not (p := (· != '\n')) rest
          rw [hd] at this
          simpa using this
        rw [hd] at hsplit
        have hcount := congrArg (List.count '\n') hsplit
        simp only [List.count_append, List.count_cons, hc, beq_self_eq_true, if_true] at hcount
        simp only [left]
        omega
  | .stream _ true, h => by cases h
  | .stream feed false, _ => by
      simp only [read, Bool.false_or]
      cases hs : (Delivery.readLine feed).bytes.getLast? != some Text.Utf8.newline with
      | true => simp [left]
      | false =>
          have := @Delivery.newlines_readLine feed (by simpa using hs)
          cases (Delivery.readLine feed).failure with
          | none => simp only [Option.isSome_none, Bool.or_false, left]; omega
          | some _ => simp [left]

end Source

end Golden
