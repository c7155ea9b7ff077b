import Golden.Proofs.Line.Remaining

/-!
# Golden.Proofs.Line.Window — what a reader has in view

A reader pulls lines as late as it can, so its window says more than the list of lines it has left.
It does not say much more.  A reader that has never been asked for a line has nothing in view; every
operation that looks at a line leaves the window `Filled`, that is, showing the next `lookahead`
lines or all that are left.  No third state ever comes about (`Reader.Regular`), and from either of
the two every operation but a question leads to a filled window (`Regular.prepare`, `Regular.skip`).

A filled window shows what the list has (`Filled.line_eq`), and it makes `hasLines` a fact about the
list as well: more lines than fit, or one that is not blank (`Filled.hasLines_eq`, `Meaningful`).
-/

namespace Golden

/-! ## Meaningful lines -/

/-- Lines of which something is left to tell: more than fit in a window, or one not blank. -/
def Meaningful (lines : List String) : Prop := lookahead < lines.length ∨ ∃ line ∈ lines, line ≠ ""

instance (lines : List String) : Decidable (Meaningful lines) :=
  inferInstanceAs (Decidable (lookahead < lines.length ∨ ∃ line ∈ lines, line ≠ ""))

theorem blank_of_not_meaningful {lines : List String} (h : ¬ Meaningful lines) :
    ∀ line ∈ lines, line = "" := by
  intro line hline
  apply Decidable.byContradiction
  intro hne
  exact h (Or.inr ⟨line, hline, hne⟩)

theorem not_meaningful_nil : ¬ Meaningful [] := by simp [Meaningful]

theorem ne_nil_of_meaningful {lines : List String} (h : Meaningful lines) : lines ≠ [] := by
  rintro rfl
  exact not_meaningful_nil h

theorem meaningful_cons {line : String} (lines : List String) (h : line ≠ "") :
    Meaningful (line :: lines) := Or.inr ⟨line, List.mem_cons_self, h⟩

/-- Lines of which nothing is left to tell show the empty line. -/
theorem headD_of_not_meaningful {lines : List String} (h : ¬ Meaningful lines) :
    lines.headD "" = "" := by
  cases lines with
  | nil => rfl
  | cons line lines => exact blank_of_not_meaningful h line List.mem_cons_self

/-- Of two lines that differ one is not blank, so a line that is not the one behind it means
something together with it. -/
theorem meaningful_cons_of_ne {line : String} {lines : List String} (h : line ≠ lines.headD "") :
    Meaningful (line :: lines) := by
  by_cases hline : line = ""
  · cases lines with
    | nil => exact absurd hline h
    | cons next lines =>
        have hnext : next ≠ "" := fun hblank => h (hline.trans hblank.symm)
        exact Or.inr ⟨next, List.mem_cons_of_mem line List.mem_cons_self, hnext⟩
  · exact meaningful_cons lines hline

theorem not_meaningful_tail {lines : List String} (h : ¬ Meaningful lines) :
    ¬ Meaningful lines.tail := by
  rintro (hlong | ⟨line, hline, hne⟩)
  · rw [List.length_tail] at hlong
    exact h (Or.inl (by omega))
  · exact hne (blank_of_not_meaningful h line (List.mem_of_mem_tail hline))

/-! ## Windows -/

namespace Reader

variable {r : Reader}

/-- A window that shows the next `lookahead` lines, or all that are left. -/
def Filled (r : Reader) : Prop := r.window = r.remaining.take lookahead

/-- A reader that has not been asked for a line yet, or one whose window is filled. -/
def Regular (r : Reader) : Prop := r.window = [] ∨ r.Filled

theorem regular_ofSource (source : Source) : (ofSource source).Regular := Or.inl rfl

theorem Filled.regular (h : r.Filled) : r.Regular := Or.inr h

/-- A window never holds more than `lookahead` lines. -/
theorem Regular.length_window_le (h : r.Regular) : r.window.length ≤ lookahead := by
  rcases h with hnil | hfilled
  · rw [hnil]
    exact Nat.zero_le _
  · rw [hfilled]
    exact List.length_take_le _ _

/-! ### Every operation fills the window -/

theorem filled_fill (h : r.window.length ≤ lookahead) : r.fill.value.Filled := by
  show r.fill.value.window = r.fill.value.remaining.take lookahead
  rw [remaining_fill, window_fill, remaining, List.take_append, List.take_of_length_le h]

theorem Regular.prepare (h : r.Regular) (pos : Nat) : (r.prepare pos).value.Filled := by
  unfold Reader.prepare
  split
  · exact filled_fill h.length_window_le
  · rename_i hin
    rcases h with hnil | hfilled
    · rw [hnil] at hin
      exact absurd (Nat.zero_le pos) hin
    · exact hfilled

theorem Regular.skip (h : r.Regular) (count : Nat) : (r.skip count).value.Filled := by
  apply filled_fill
  have hdrop := List.length_drop (i := count) (l := r.window)
  have hlen := h.length_window_le
  show (r.window.drop count).length ≤ lookahead
  omega

theorem Regular.consume (h : r.Regular) : r.consume.value.2.Filled :=
  (h.prepare 0).regular.skip 1

/-- Comparing the next lines leaves both windows filled, whether or not they are taken. -/
theorem Regular.takeShared {other : Reader} (h : r.Regular) (hother : other.Regular) :
    (r.takeShared other).value.2.1.Filled ∧ (r.takeShared other).value.2.2.Filled := by
  have hself := h.prepare 0
  have hthird := hother.prepare 0
  simp only [Reader.takeShared, Traced.value_bind]
  split
  · exact ⟨hself.regular.skip 1, hthird.regular.skip 1⟩
  · exact ⟨hself, hthird⟩

/-! ### What a filled window shows -/

/-- Behind a filled window stand the lines from position `lookahead` on. -/
theorem Filled.lines_source (h : r.Filled) : r.source.lines = r.remaining.drop lookahead := by
  have hall : r.window ++ r.source.lines
      = r.remaining.take lookahead ++ r.remaining.drop lookahead :=
    (List.take_append_drop lookahead r.remaining).symm
  rw [h] at hall
  exact List.append_cancel_left hall

/-- Inside the window a line is the one the list has there; outside it is empty. -/
theorem Filled.line_eq (h : r.Filled) (pos : Nat) :
    r.line pos = if pos < lookahead then r.remaining.getD pos "" else "" := by
  rw [line, h, List.getD_eq_getElem?_getD, List.getElem?_take]
  split
  · rw [List.getD_eq_getElem?_getD]
  · rfl

/-- **What `hasLines` says of a filled window** is a fact about the lines that are left. -/
theorem Filled.hasLines_eq (h : r.Filled) : r.hasLines = decide (Meaningful r.remaining) := by
  have hsource : r.source.hasMore = true ↔ lookahead < r.remaining.length := by
    rw [Source.hasMore_iff, h.lines_source, Ne, List.drop_eq_nil_iff, Nat.not_le]
  have hmem : ∀ line, line ∈ r.remaining ↔ line ∈ r.window ∨ line ∈ r.source.lines := by
    intro line
    rw [remaining, List.mem_append]
  rw [Bool.eq_iff_iff, decide_eq_true_iff, hasLines, Bool.or_eq_true, hsource, List.any_eq_true]
  constructor
  · rintro (hmore | ⟨line, hline, hne⟩)
    · exact Or.inl hmore
    · exact Or.inr ⟨line, (hmem line).mpr (Or.inl hline), by simpa using hne⟩
  · rintro (hmore | ⟨line, hline, hne⟩)
    · exact Or.inl hmore
    · -- a line behind the window is one of more lines than fit in it
      rcases (hmem line).mp hline with hin | hbehind
      · exact Or.inr ⟨line, hin, by simpa using hne⟩
      · exact Or.inl (hsource.mp ((Source.hasMore_iff _).mpr (List.ne_nil_of_mem hbehind)))

end Reader

end Golden
