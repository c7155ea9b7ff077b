import Golden.Line.Reader

/-!
# Golden.Proofs.Line.Remaining — a reader as the list of the lines it has left

A source is worth the lines it still delivers (`Source.lines`), and a reader is worth what it holds
in view followed by those (`Reader.remaining`).  How much of that list has been pulled already is of
no consequence: every operation of a reader is told here by what it does to the list, so that
nothing built on readers has to look at a window again.

* Pulling moves lines from the source into view and leaves the list alone (`remaining_fill`).
* The line shown at a position below `lookahead` that has been asked for is the one the list has
  there, and the empty line past its end (`line_prepare`).
* Consuming takes the head off, and nothing off an empty list (`remaining_consume`).
* `takeShared` takes the head off both lists when the heads agree (`takeShared_value`).
* `hasLines` alone looks past the list at the window.  It is bounded on both sides: a reader that
  denies having lines has only blank ones (`blank_of_hasLines_eq_false`), and one that claims to
  have some has at least one, blank or not (`remaining_ne_nil`).

None of this asks how the reader came about; a fresh reader, one with a half-filled window and one
that has been read to its end are all covered.
-/

namespace Golden

namespace Source

/-- The trimmed lines a source still delivers. -/
def lines (source : Source) : List String :=
  if h : source.hasMore = true then
    have : source.read.after.left < source.left := left_read_lt h
    String.ofList (trimTerminators source.read.line) :: lines source.read.after
  else []
termination_by source.left

theorem lines_of_hasMore {source : Source} (h : source.hasMore = true) :
    source.lines
      = String.ofList (trimTerminators source.read.line) :: source.read.after.lines := by
  rw [lines, dif_pos h]

theorem lines_of_ended {source : Source} (h : source.hasMore = false) : source.lines = [] := by
  rw [lines, dif_neg (by simp [h])]

theorem hasMore_iff (source : Source) : source.hasMore = true ↔ source.lines ≠ [] := by
  cases h : source.hasMore with
  | true => simp [lines_of_hasMore h]
  | false => simp [lines_of_ended h]

/-- Pulling takes lines from the front and leaves the others in the source. -/
theorem pull_value (n : Nat) (source : Source) :
    (source.pull n).value.1 = source.lines.take n ∧
      (source.pull n).value.2.lines = source.lines.drop n := by
  induction n generalizing source with
  | zero => simp [pull]
  | succ n ih =>
      unfold pull
      cases h : source.hasMore with
      | true =>
          obtain ⟨htake, hdrop⟩ := ih source.read.after
          simp [lines_of_hasMore h, htake, hdrop]
      | false => simp [lines_of_ended h]

end Source

namespace Reader

/-- The lines a reader has left: those in view, then those its source still delivers. -/
def remaining (r : Reader) : List String := r.window ++ r.source.lines

@[simp] theorem remaining_ofSource (source : Source) :
    (ofSource source).remaining = source.lines := rfl

/-! ### Filling the window -/

theorem window_fill (r : Reader) :
    r.fill.value.window = r.window ++ r.source.lines.take (lookahead - r.window.length) := by
  simp [fill, Source.pull_value]

theorem lines_source_fill (r : Reader) :
    r.fill.value.source.lines = r.source.lines.drop (lookahead - r.window.length) := by
  simp [fill, Source.pull_value]

@[simp] theorem remaining_fill (r : Reader) : r.fill.value.remaining = r.remaining := by
  simp only [remaining, window_fill, lines_source_fill, List.append_assoc, List.take_append_drop]

@[simp] theorem remaining_prepare (r : Reader) (pos : Nat) :
    (r.prepare pos).value.remaining = r.remaining := by
  unfold prepare
  split
  · exact remaining_fill r
  · rfl

/-- A window shows a prefix of what is left. -/
theorem line_of_lt {r : Reader} {pos : Nat} (h : pos < r.window.length) :
    r.line pos = r.remaining.getD pos "" := by
  simp [line, remaining, List.getD_eq_getElem?_getD, List.getElem?_append_left h]

/-- A filled window shows everything below `lookahead`. -/
theorem line_fill (r : Reader) {pos : Nat} (h : pos < lookahead) :
    r.fill.value.line pos = r.remaining.getD pos "" := by
  by_cases hin : pos < r.fill.value.window.length
  · rw [line_of_lt hin, remaining_fill]
  · -- a filled window is short of `lookahead` only when the source has nothing left
    have hshort : r.remaining.length ≤ pos := by
      rw [window_fill, List.length_append, List.length_take] at hin
      rw [remaining, List.length_append]
      omega
    rw [line, List.getD_eq_getElem?_getD, List.getD_eq_getElem?_getD,
      List.getElem?_eq_none (by omega), List.getElem?_eq_none hshort]

/-- Once a position below `lookahead` has been asked for, it and all before it show the lines that
are left. -/
theorem line_prepare (r : Reader) {pos asked : Nat} (hle : pos ≤ asked) (h : asked < lookahead) :
    (r.prepare asked).value.line pos = r.remaining.getD pos "" := by
  unfold prepare
  split
  · exact line_fill r (by omega)
  · rename_i hin
    exact line_of_lt (Nat.lt_of_le_of_lt hle (Nat.lt_of_not_le hin))

/-- Position 0, once asked for, shows the head of what is left. -/
theorem line_zero_prepare (r : Reader) : (r.prepare 0).value.line 0 = r.remaining.headD "" := by
  rw [line_prepare r (Nat.le_refl 0) (by decide)]
  cases r.remaining with
  | nil => rfl
  | cons l ls => rfl

/-! ### Taking lines -/

theorem remaining_skip (r : Reader) (count : Nat) :
    (r.skip count).value.remaining = r.remaining.drop (min count r.window.length) := by
  rw [skip, remaining_fill, remaining, remaining]
  rw [List.drop_append_of_le_length (Nat.min_le_right _ _)]
  rcases Nat.le_total count r.window.length with h | h
  · rw [Nat.min_eq_left h]
  · rw [Nat.min_eq_right h, List.drop_eq_nil_of_le h, List.drop_length]

/-- Dropping one line after position 0 has been asked for takes the head of what is left. -/
theorem remaining_skip_prepare (r : Reader) :
    ((r.prepare 0).value.skip 1).value.remaining = r.remaining.tail := by
  rw [remaining_skip, remaining_prepare]
  by_cases hw : (r.prepare 0).value.window = []
  · have hnone : r.remaining = [] := by
      rw [← remaining_prepare r 0, remaining, hw, Source.lines_of_ended (hasMore_of_prepare_nil hw)]
      rfl
    simp [hnone]
  · have hlen : 0 < (r.prepare 0).value.window.length := List.length_pos_iff.mpr hw
    rw [Nat.min_eq_left hlen, List.drop_one]

theorem consume_line (r : Reader) : r.consume.value.1 = r.remaining.headD "" := by
  simp only [consume, Traced.value_bind, Traced.value_pure]
  exact line_zero_prepare r

theorem remaining_consume (r : Reader) : r.consume.value.2.remaining = r.remaining.tail := by
  simp only [consume, Traced.value_bind, Traced.value_pure]
  exact remaining_skip_prepare r

/-- Two readers give up their heads when these agree, and otherwise nothing. -/
theorem takeShared_value (self other : Reader) :
    if self.remaining.headD "" = other.remaining.headD "" then
      (self.takeShared other).value.1 = some (self.remaining.headD "") ∧
        (self.takeShared other).value.2.1.remaining = self.remaining.tail ∧
        (self.takeShared other).value.2.2.remaining = other.remaining.tail
    else
      (self.takeShared other).value
        = (none, (self.prepare 0).value, (other.prepare 0).value) := by
  simp only [takeShared, Traced.value_bind]
  rw [line_zero_prepare, line_zero_prepare]
  split
  · simp [remaining_skip_prepare]
  · rfl

/-! ### What `hasLines` says -/

theorem blank_of_hasLines_eq_false {r : Reader} (h : r.hasLines = false) :
    ∀ line ∈ r.remaining, line = "" := by
  simp only [hasLines, Bool.or_eq_false_iff, List.any_eq_false, bne_iff_ne, ne_eq,
    Decidable.not_not] at h
  obtain ⟨hsource, hwindow⟩ := h
  intro line hmem
  rw [remaining, Source.lines_of_ended hsource, List.append_nil] at hmem
  exact hwindow line hmem

theorem remaining_ne_nil {r : Reader} (h : r.hasLines = true) : r.remaining ≠ [] := by
  intro hnil
  obtain ⟨hwindow, hlines⟩ := List.append_eq_nil_iff.mp hnil
  have hsource : r.source.hasMore = false := by
    cases hm : r.source.hasMore with
    | true => exact absurd hlines ((Source.hasMore_iff _).mp hm)
    | false => rfl
  rw [hasLines_of_drained hwindow hsource] at h
  exact Bool.false_ne_true h

end Reader

end Golden
