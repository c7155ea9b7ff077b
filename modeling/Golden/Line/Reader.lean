import Golden.Line.Source
import Golden.Traced

/-!
# Golden.Line.Reader — a window of lookahead over a source

An alignment decides what a mismatch means by looking a line ahead on either side, so it reads
through a `Reader`: a source and the lines already pulled off it, without their line terminators and
not yet consumed.  The window holds at most `lookahead` lines.  It is filled when a position past
its end is asked for, and topped up after every line that leaves it; a line that has not been asked
for and does not fit is never pulled.

Every operation here is total.  What can be seen of a reader is `line` (the empty line stands for
anything outside the window), `hasLines` and `buffered`.  Pulling lines is the only thing that can
go wrong, and a failed read is reported as an event of the operation that met it (`LineEvent`).

`Reader.left` bounds the lines a reader can still give.  No operation raises it and taking a line
lowers it, which is all that the termination of the alignment needs.
-/

namespace Golden

/-- How many lines a reader keeps in view. -/
def lookahead : Nat := 5

/-- What reading and aligning lines can report. -/
inductive LineEvent
  /-- A source stopped for good, for this cause. -/
  | readFailed (cause : Cause)
  /-- The two sides of an alignment differ here for the first time. -/
  | firstMismatch
  deriving DecidableEq, Repr

/-- A line without any carriage returns and newlines at its end. -/
def trimTerminators (line : List Char) : List Char :=
  (line.reverse.dropWhile fun c => c == '\r' || c == '\n').reverse

namespace Source

/-- Pull up to `n` trimmed lines off a source. -/
def pull : Nat → Source → Traced LineEvent (List String × Source)
  | 0, source => pure ([], source)
  | n + 1, source =>
    if source.hasMore then
      let reading := source.read
      let line := String.ofList (trimTerminators reading.line)
      let next := pull n reading.after
      ⟨(line :: next.value.1, next.value.2),
        (reading.failure.toList.map .readFailed) ++ next.events⟩
    else pure ([], source)

end Source

/-- A source and its window of lines that were pulled but not consumed. -/
structure Reader where
  source : Source
  window : List String
  deriving DecidableEq, Repr

namespace Reader

def ofSource (source : Source) : Reader := ⟨source, []⟩

def ofText (text : String) : Reader := ofSource (.ofText text)

def ofDeliveries (feed : List Delivery) : Reader := ofSource (.ofDeliveries feed)

/-- Pull lines until the window is full or the source has ended. -/
def fill (r : Reader) : Traced LineEvent Reader := do
  let (lines, source) ← r.source.pull (lookahead - r.window.length)
  return ⟨source, r.window ++ lines⟩

/-- Bring position `pos` into view, if the source still reaches that far. -/
def prepare (r : Reader) (pos : Nat) : Traced LineEvent Reader :=
  if r.window.length ≤ pos then r.fill else pure r

/-- The line `pos` places ahead, empty when nothing is in view there. -/
def line (r : Reader) (pos : Nat) : String := r.window.getD pos ""

/-- Look at the line `pos` places ahead without consuming anything. -/
def peek (r : Reader) (pos : Nat) : Traced LineEvent (String × Reader) := do
  let r ← r.prepare pos
  return (r.line pos, r)

/-- Drop up to `count` lines in view and top the window up. -/
def skip (r : Reader) (count : Nat) : Traced LineEvent Reader :=
  fill { r with window := r.window.drop count }

/-- Take the next line, the empty one when nothing is left. -/
def consume (r : Reader) : Traced LineEvent (String × Reader) := do
  let r ← r.prepare 0
  let rest ← r.skip 1
  return (r.line 0, rest)

/-- Whether anything meaningful is left: the source goes on, or a line in view is not blank. -/
def hasLines (r : Reader) : Bool :=
  r.source.hasMore || r.window.any (· != "")

/-- How many lines are in view. -/
def buffered (r : Reader) : Nat := r.window.length

/-- If the next lines of both readers are equal, take that line from each.  A reader with nothing
left shows the empty line and gives nothing up. -/
def takeShared (self other : Reader) : Traced LineEvent (Option String × Reader × Reader) := do
  let self ← self.prepare 0
  let other ← other.prepare 0
  if self.line 0 = other.line 0 then
    let rest ← self.skip 1
    let otherRest ← other.skip 1
    return (some (self.line 0), rest, otherRest)
  else
    return (none, self, other)

/-! ### What is left -/

/-- An upper bound on the lines a reader can still give. -/
def left (r : Reader) : Nat := r.window.length + r.source.left

end Reader

theorem Source.left_pull_le : ∀ (n : Nat) (source : Source),
    (source.pull n).value.1.length + (source.pull n).value.2.left ≤ source.left
  | 0, _ => by simp [Source.pull]
  | n + 1, source => by
      unfold Source.pull
      split
      · rename_i h
        have hread := Source.left_read_lt h
        have ih := Source.left_pull_le n source.read.after
        simp only [List.length_cons]
        omega
      · simp

/-- Pulling from a source that goes on brings at least one line. -/
theorem Source.pull_ne_nil {n : Nat} {source : Source} (h : source.hasMore = true) :
    (source.pull (n + 1)).value.1 ≠ [] := by
  simp [Source.pull, h]

namespace Reader

theorem left_fill_le (r : Reader) : r.fill.value.left ≤ r.left := by
  have h := Source.left_pull_le (lookahead - r.window.length) r.source
  simp only [fill, left, Traced.value_bind, Traced.value_pure, List.length_append]
  omega

theorem left_prepare_le (r : Reader) (pos : Nat) : (r.prepare pos).value.left ≤ r.left := by
  unfold prepare
  split
  · exact left_fill_le r
  · simp

theorem left_skip_le (r : Reader) (count : Nat) :
    (r.skip count).value.left + min count r.window.length ≤ r.left := by
  have h := left_fill_le { r with window := r.window.drop count }
  simp only [left, List.length_drop] at h ⊢
  simp only [skip]
  omega

theorem left_consume_le (r : Reader) : r.consume.value.2.left ≤ r.left := by
  have h₁ := left_prepare_le r 0
  have h₂ := left_skip_le (r.prepare 0).value 1
  simp only [consume, Traced.value_bind, Traced.value_pure]
  omega

theorem left_consume_lt {r : Reader} (h : r.window ≠ []) : r.consume.value.2.left < r.left := by
  have hlen : 0 < r.window.length := List.length_pos_iff.mpr h
  have hprep : (r.prepare 0).value = r := by simp [prepare, h]
  have h₂ := left_skip_le r 1
  simp only [consume, Traced.value_bind, Traced.value_pure, hprep]
  omega

/-- Once position 0 has been asked for, an empty window means an ended source. -/
theorem hasMore_of_prepare_nil {r : Reader} (h : (r.prepare 0).value.window = []) :
    (r.prepare 0).value.source.hasMore = false := by
  unfold prepare at h ⊢
  split at h
  · rename_i hlen
    rw [if_pos hlen]
    have hw : r.window = [] := by simpa using hlen
    cases hm : r.source.hasMore with
    | true =>
        have hne := Source.pull_ne_nil (n := 4) hm
        simp [fill, hw, lookahead] at h
        exact absurd h hne
    | false => simp [fill, hw, lookahead, Source.pull, hm]
  · rename_i hlen
    exact absurd (by simpa using h) hlen

/-- A reader with something left to show shows it once position 0 is asked for. -/
theorem prepare_ne_nil_of_hasLines {r : Reader} (h : r.hasLines = true) :
    (r.prepare 0).value.window ≠ [] := by
  intro hw
  cases hrw : r.window with
  | nil =>
      have hm := hasMore_of_prepare_nil hw
      cases hsm : r.source.hasMore with
      | true =>
          have hne := Source.pull_ne_nil (n := 4) hsm
          simp [prepare, fill, hrw, lookahead] at hw
          exact hne hw
      | false => simp [hasLines, hrw, hsm] at h
  | cons l ls => simp [prepare, hrw] at hw

/-- With nothing in view and nothing to come, preparing changes nothing. -/
theorem prepare_of_drained {r : Reader} (hw : r.window = []) (hm : r.source.hasMore = false)
    (pos : Nat) : (r.prepare pos).value = r := by
  unfold prepare
  split
  · cases r
    simp_all [fill, lookahead, Source.pull]
  · rfl

theorem prepare_window_ne_nil {r : Reader} (h : r.window ≠ []) (pos : Nat) :
    (r.prepare pos).value.window ≠ [] := by
  unfold prepare
  split
  · simp [fill, h]
  · simpa using h

theorem hasLines_of_drained {r : Reader} (hw : r.window = []) (hm : r.source.hasMore = false) :
    r.hasLines = false := by
  simp [hasLines, hw, hm]

end Reader

end Golden
