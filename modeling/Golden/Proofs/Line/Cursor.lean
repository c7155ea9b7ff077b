import Golden.Proofs.Line.Interchange
import Golden.Proofs.Line.Window

/-!
# Golden.Proofs.Line.Cursor — a reader is a position in a list of lines

A `Cursor` holds all lines of a source from the start and the number of those that were taken.  It
pulls nothing and has no window; the one thing it remembers besides its position is whether a line
has been looked at yet, since a fresh reader has nothing in view.  Requests to it are answered from
the list (`Cursor.ask`):

* a peek shows the line so many places ahead, if it lies within `lookahead`, and moves nothing;
* taking a line moves the position by one, and not at all at the end;
* skipping moves it by no more than what is in view;
* a shared line is taken on both sides, where there is one to take;
* something is left as long as the lines ahead are `Meaningful`.

`Reader.Tracks` relates a reader to its cursor.  In particular it says how far a source has been
read: the lines it still delivers begin where the window ends, at most `lookahead` lines ahead of
the position.  One request keeps that relation and is answered alike by both (`Tracks.ask`); so is a
whole series, put to two readers side by side in any order (`converse_eq_cursor`).
-/

namespace Golden

/-- A position in a list of lines, and whether a line of it has been looked at. -/
structure Cursor where
  lines : List String
  /-- How many lines have been taken. -/
  position : Nat
  opened : Bool
  deriving DecidableEq, Repr

namespace Cursor

def start (lines : List String) : Cursor := ⟨lines, 0, false⟩

/-- The lines that have not been taken. -/
def remaining (c : Cursor) : List String := c.lines.drop c.position

/-- The lines in view: the next `lookahead`, none before one has been looked at. -/
def view (c : Cursor) : List String := if c.opened then c.remaining.take lookahead else []

/-- The line `pos` places ahead, empty past the end and from position `lookahead` on. -/
def line (c : Cursor) (pos : Nat) : String :=
  if pos < lookahead then c.lines.getD (c.position + pos) "" else ""

/-- Go `count` lines forward. -/
def advance (c : Cursor) (count : Nat) : Cursor :=
  { c with position := c.position + count, opened := true }

/-- Go one line forward, if there is one. -/
def take (c : Cursor) : Cursor := if c.position < c.lines.length then c.advance 1 else c.advance 0

/-- Whether anything is left.  Before a line has been looked at, a blank one counts too. -/
def hasLines (c : Cursor) : Bool :=
  if c.opened then decide (Meaningful c.remaining) else !c.remaining.isEmpty

/-- Put a request to a cursor beside a third one. -/
def ask (c third : Cursor) : Request → Answer × Cursor × Cursor
  | .peek pos => (.line (c.line pos), c.advance 0, third)
  | .skip count => (.nothing, c.advance (min count c.view.length), third)
  | .consume => (.line (c.line 0), c.take, third)
  | .hasLines => (.flag c.hasLines, c, third)
  | .buffered => (.count c.view.length, c, third)
  | .takeShared =>
    if c.line 0 = third.line 0 then (.flag true, c.take, third.take)
    else (.flag false, c.advance 0, third.advance 0)

theorem remaining_advance (c : Cursor) (count : Nat) :
    (c.advance count).remaining = c.remaining.drop count := by
  rw [remaining, remaining, List.drop_drop]
  rfl

end Cursor

/-- Put a series of requests, each to either of two parties; the answers, and both parties at the
end. -/
def converse {α : Type} (ask : α → α → Request → Answer × α × α) (self third : α) :
    List (Addressee × Request) → List Answer × α × α
  | [] => ([], self, third)
  | (.reader, request) :: rest =>
    let (answer, self, third) := ask self third request
    let (answers, parties) := converse ask self third rest
    (answer :: answers, parties)
  | (.third, request) :: rest =>
    let (answer, third, self) := ask third self request
    let (answers, parties) := converse ask self third rest
    (answer :: answers, parties)

namespace Reader

/-- The reader stands at the cursor of a source: it shows what the cursor shows, and its source
delivers what comes after that and nothing else. -/
structure Tracks (source : Source) (r : Reader) (c : Cursor) : Prop where
  lines : c.lines = source.lines
  within : c.position ≤ c.lines.length
  window : r.window = c.view
  length_window_le : r.window.length ≤ lookahead
  behind : r.source.lines = c.lines.drop (c.position + r.window.length)

theorem tracks_ofSource (source : Source) :
    Tracks source (ofSource source) (.start source.lines) where
  lines := rfl
  within := Nat.zero_le _
  window := rfl
  length_window_le := Nat.zero_le _
  behind := rfl

namespace Tracks

variable {source other : Source} {r s : Reader} {c d : Cursor}

/-- A reader has left what its cursor has left. -/
theorem remaining (h : Tracks source r c) : r.remaining = c.remaining := by
  rw [Reader.remaining, h.behind, h.window, Cursor.view]
  split
  · rw [← List.drop_drop]
    show c.remaining.take lookahead ++ c.remaining.drop (c.remaining.take lookahead).length = _
    rw [List.length_take]
    -- a view that is not full has all lines in it, so that the source has none
    rcases Nat.le_total lookahead c.remaining.length with hlong | hshort
    · rw [Nat.min_eq_left hlong, List.take_append_drop]
    · rw [Nat.min_eq_right hshort, List.drop_length, List.append_nil, List.take_of_length_le hshort]
  · rfl

/-- The window of a reader whose cursor has looked at a line is filled. -/
theorem filled (h : Tracks source r c) (hopened : c.opened = true) : r.Filled := by
  show r.window = r.remaining.take lookahead
  rw [h.remaining, h.window, Cursor.view, if_pos hopened]

/-- Before that nothing is in view. -/
theorem window_eq_nil (h : Tracks source r c) (hopened : ¬ c.opened = true) : r.window = [] := by
  rw [h.window, Cursor.view, if_neg hopened]

theorem regular (h : Tracks source r c) : r.Regular := by
  by_cases hopened : c.opened = true
  · exact (h.filled hopened).regular
  · exact Or.inl (h.window_eq_nil hopened)

/-! ### Moving a reader and its cursor together -/

/-- A reader with a filled window and the lines from `count` further on has gone that far. -/
theorem advance {count : Nat} (h : Tracks source r c)
    (hwithin : c.position + count ≤ c.lines.length) (hfilled : s.Filled)
    (hremaining : s.remaining = c.remaining.drop count) : Tracks source s (c.advance count) where
  lines := h.lines
  within := hwithin
  window := by
    rw [hfilled, hremaining, ← Cursor.remaining_advance]
    rfl
  length_window_le := hfilled.regular.length_window_le
  behind := by
    have hall : s.window ++ s.source.lines = (c.advance count).remaining := by
      rw [Cursor.remaining_advance, ← hremaining]
      rfl
    rw [← List.drop_drop]
    show s.source.lines = (c.advance count).remaining.drop s.window.length
    rw [← hall, List.drop_left]

theorem prepare (h : Tracks source r c) (pos : Nat) :
    Tracks source (r.prepare pos).value (c.advance 0) := by
  apply h.advance h.within (h.regular.prepare pos)
  rw [remaining_prepare, h.remaining, List.drop_zero]

theorem skip (h : Tracks source r c) (count : Nat) :
    Tracks source (r.skip count).value (c.advance (min count c.view.length)) := by
  have hwithin : c.position + min count c.view.length ≤ c.lines.length := by
    have hlen : r.remaining.length = c.lines.length - c.position := by
      rw [h.remaining, Cursor.remaining, List.length_drop]
    rw [Reader.remaining, List.length_append, h.window] at hlen
    have hpos := h.within
    omega
  apply h.advance hwithin (h.regular.skip count)
  rw [remaining_skip, h.remaining, h.window]

theorem skip_prepare (h : Tracks source r c) :
    Tracks source ((r.prepare 0).value.skip 1).value c.take := by
  have hfilled := (h.regular.prepare 0).regular.skip 1
  unfold Cursor.take
  split
  · rename_i hpos
    apply h.advance hpos hfilled
    rw [remaining_skip_prepare, h.remaining, List.drop_one]
  · rename_i hend
    have hnil : c.remaining = [] := List.drop_eq_nil_of_le (Nat.le_of_not_lt hend)
    apply h.advance h.within hfilled
    rw [remaining_skip_prepare, h.remaining, hnil]
    rfl

/-! ### What is seen -/

theorem line_prepare (h : Tracks source r c) (pos : Nat) :
    (r.prepare pos).value.line pos = c.line pos := by
  rw [(h.regular.prepare pos).line_eq, remaining_prepare, h.remaining, Cursor.line]
  split
  · rw [Cursor.remaining, List.getD_eq_getElem?_getD, List.getElem?_drop,
      ← List.getD_eq_getElem?_getD]
  · rfl

theorem hasLines (h : Tracks source r c) : r.hasLines = c.hasLines := by
  unfold Cursor.hasLines
  split
  · rename_i hopened
    rw [(h.filled hopened).hasLines_eq, h.remaining]
  · rename_i hopened
    have hwindow := h.window_eq_nil hopened
    have hsource : r.source.lines = c.remaining := by
      rw [h.behind, hwindow]
      rfl
    -- with nothing in view only the source can have lines
    have hmore : r.source.hasMore = true ↔ c.remaining ≠ [] := by
      rw [Source.hasMore_iff, hsource]
    rw [Reader.hasLines, hwindow, List.any_nil, Bool.or_false, Bool.eq_iff_iff, hmore]
    cases c.remaining <;> simp

theorem takeShared (h : Tracks source r c) (hthird : Tracks other s d) :
    if c.line 0 = d.line 0 then
      (r.takeShared s).value.1.isSome = true ∧
        Tracks source (r.takeShared s).value.2.1 c.take ∧
        Tracks other (r.takeShared s).value.2.2 d.take
    else
      (r.takeShared s).value.1.isSome = false ∧
        Tracks source (r.takeShared s).value.2.1 (c.advance 0) ∧
        Tracks other (r.takeShared s).value.2.2 (d.advance 0) := by
  simp only [Reader.takeShared, Traced.value_bind, h.line_prepare 0, hthird.line_prepare 0]
  split
  · exact ⟨rfl, h.skip_prepare, hthird.skip_prepare⟩
  · exact ⟨rfl, h.prepare 0, hthird.prepare 0⟩

/-! ### Requests -/

/-- **One request** is answered alike by reader and cursor, and both stay together. -/
theorem ask (h : Tracks source r c) (hthird : Tracks other s d) (request : Request) :
    (r.ask s request).1 = (c.ask d request).1 ∧
      Tracks source (r.ask s request).2.1 (c.ask d request).2.1 ∧
      Tracks other (r.ask s request).2.2 (c.ask d request).2.2 := by
  cases request with
  | peek pos => exact ⟨congrArg Answer.line (h.line_prepare pos), h.prepare pos, hthird⟩
  | skip count => exact ⟨rfl, h.skip count, hthird⟩
  | consume => exact ⟨congrArg Answer.line (h.line_prepare 0), h.skip_prepare, hthird⟩
  | hasLines => exact ⟨congrArg Answer.flag h.hasLines, h, hthird⟩
  | buffered => exact ⟨congrArg (Answer.count ∘ List.length) h.window, h, hthird⟩
  | takeShared =>
      have hshared := h.takeShared hthird
      simp only [Reader.ask, Cursor.ask]
      split at hshared
      · rename_i heq
        rw [if_pos heq]
        exact ⟨congrArg Answer.flag hshared.1, hshared.2⟩
      · rename_i hne
        rw [if_neg hne]
        exact ⟨congrArg Answer.flag hshared.1, hshared.2⟩

/-- **All requests**, by induction on the series. -/
theorem converse (h : Tracks source r c) (hthird : Tracks other s d)
    (requests : List (Addressee × Request)) :
    let readers := Golden.converse Reader.ask r s requests
    let cursors := Golden.converse Cursor.ask c d requests
    readers.1 = cursors.1 ∧ Tracks source readers.2.1 cursors.2.1 ∧
      Tracks other readers.2.2 cursors.2.2 := by
  induction requests generalizing r s c d with
  | nil => exact ⟨rfl, h, hthird⟩
  | cons addressed rest ih =>
      obtain ⟨addressee, request⟩ := addressed
      cases addressee with
      | reader =>
          obtain ⟨hanswer, hself, hother⟩ := h.ask hthird request
          obtain ⟨hrest, hend⟩ := ih hself hother
          exact ⟨congrArg₂ List.cons hanswer hrest, hend⟩
      | third =>
          obtain ⟨hanswer, hother, hself⟩ := hthird.ask h request
          obtain ⟨hrest, hend⟩ := ih hself hother
          exact ⟨congrArg₂ List.cons hanswer hrest, hend⟩

end Tracks

/-- **A reader is a cursor.**  Two fresh readers and two cursors at the start of the same lines give
the same answers to every series of requests.  Whatever the series was, each window holds at most
`lookahead` lines, exactly those its cursor has in view, and each source still has the lines that
come after these. -/
theorem converse_eq_cursor (source other : Source) (requests : List (Addressee × Request)) :
    let readers := Golden.converse Reader.ask (ofSource source) (ofSource other) requests
    let cursors := Golden.converse Cursor.ask (.start source.lines) (.start other.lines) requests
    readers.1 = cursors.1 ∧ Tracks source readers.2.1 cursors.2.1 ∧
      Tracks other readers.2.2 cursors.2.2 :=
  (tracks_ofSource source).converse (tracks_ofSource other) requests

end Reader

end Golden
