import Golden.Proofs.Line.Account

/-!
# Golden.Proofs.Line.Verdict — when two texts match, and who hears of it

Two readers match exactly when what they have left is the same up to blank lines at the end
(`Alignment.isMatch_run`).  One direction is the account of `Golden.Proofs.Line.Account`: steps that
are all agreements have the same lines on both sides.  The other is an invariant of the turns: sides
that agree up to trailing blank lines show the same line, so the turn is an agreement, and what is
left agrees again.  Neither looks at a window, so the verdict does not depend on what had been
pulled before.

A mismatch is announced once.  Every turn that records something reports it, reading reports nothing
of the kind, and of several reports only the first is passed on (`Alignment.count_keepFirstMismatch`).
-/

namespace Golden

/-! ## Agreeing sides -/

namespace Turn

/-- Sides that agree up to trailing blank lines take an agreement and go on agreeing. -/
theorem next_of_agree {e a : Reader}
    (h : withoutTrailingBlanks e.remaining = withoutTrailingBlanks a.remaining) :
    (next e a).value.edit.isKeep = true ∧
      withoutTrailingBlanks (next e a).value.expected.remaining
        = withoutTrailingBlanks (next e a).value.actual.remaining := by
  obtain ⟨hhead, htail⟩ := headD_and_tail_of_withoutTrailingBlanks h
  have hshared := Reader.takeShared_value e a
  rw [if_pos hhead] at hshared
  obtain ⟨hline, hrest, hotherRest⟩ := hshared
  simp only [next, Traced.value_bind, hline, Traced.value_pure, hrest, hotherRest]
  exact ⟨rfl, htail⟩

/-- The same once nothing is expected any more. -/
theorem drain_of_agree {e a : Reader}
    (h : withoutTrailingBlanks e.remaining = withoutTrailingBlanks a.remaining) :
    (drain e a).value.edit.isKeep = true ∧
      withoutTrailingBlanks (drain e a).value.expected.remaining
        = withoutTrailingBlanks (drain e a).value.actual.remaining := by
  obtain ⟨hhead, htail⟩ := headD_and_tail_of_withoutTrailingBlanks h
  have hshared := Reader.takeShared_value a e
  rw [if_pos hhead.symm] at hshared
  obtain ⟨hline, hrest, hotherRest⟩ := hshared
  simp only [drain, Traced.value_bind, hline, Traced.value_pure, hrest, hotherRest]
  exact ⟨rfl, htail⟩

end Turn

namespace Alignment

theorem isMatch_prepend (t : Traced LineEvent Turn) (rest : Traced LineEvent Alignment) :
    (prepend t rest).value.isMatch = (t.value.edit.isKeep && rest.value.isMatch) := rfl

theorem isMatch_ofActual {e a : Reader}
    (h : withoutTrailingBlanks e.remaining = withoutTrailingBlanks a.remaining) :
    (ofActual e a).value.isMatch = true := by
  fun_induction ofActual e a with
  | case1 e a _ t _ ih =>
      obtain ⟨hkeep, hrest⟩ := Turn.drain_of_agree h
      rw [isMatch_prepend, hkeep, ih hrest]
      rfl
  | case2 => rfl

theorem isMatch_ofReaders {e a : Reader}
    (h : withoutTrailingBlanks e.remaining = withoutTrailingBlanks a.remaining) :
    (ofReaders e a).value.isMatch = true := by
  fun_induction ofReaders e a with
  | case1 e a _ t _ ih =>
      obtain ⟨hkeep, hrest⟩ := Turn.next_of_agree h
      rw [isMatch_prepend, hkeep, ih hrest]
      rfl
  | case2 e a _ => exact isMatch_ofActual h

/-- The two sides of agreements are the same lines. -/
theorem sides_eq_of_all_isKeep {edits : List Edit} (h : edits.all Edit.isKeep = true) :
    edits.flatMap Edit.expectedSide = edits.flatMap Edit.actualSide := by
  induction edits with
  | nil => rfl
  | cons edit edits ih =>
      rw [List.all_cons, Bool.and_eq_true] at h
      rw [List.flatMap_cons, List.flatMap_cons, ih h.2]
      cases edit with
      | keep line => rfl
      | add line | remove line | substitute observed line => exact absurd h.1 Bool.false_ne_true

theorem isMatch_ofReaders_iff (e a : Reader) :
    (ofReaders e a).value.isMatch = true ↔
      withoutTrailingBlanks e.remaining = withoutTrailingBlanks a.remaining := by
  constructor
  · intro h
    obtain ⟨hexpected, hactual⟩ := (accounts_ofReaders e a).sides
    rw [← hexpected, ← hactual, sides_eq_of_all_isKeep h]
  · exact isMatch_ofReaders

/-- Nothing is recorded exactly when every step is an agreement. -/
theorem isMatch_iff_diagnostics (alignment : Alignment) :
    alignment.isMatch = true ↔ alignment.diagnostics = [] := by
  rw [isMatch, diagnostics, List.all_eq_true, List.flatMap_eq_nil_iff]
  exact forall₂_congr fun edit _ => Edit.diagnostics_eq_nil_iff.symm

theorem isMatch_eq_false_of_cons {alignment : Alignment} {first : Diagnostic}
    {others : List Diagnostic} (h : alignment.diagnostics = first :: others) :
    alignment.isMatch = false := by
  rw [Bool.eq_false_iff, Ne, isMatch_iff_diagnostics, h]
  exact List.cons_ne_nil first others

/-- What begins with one diagnostic is told by it from all that begin with another. -/
theorem begins_of_cons {alignment : Alignment} {first : Diagnostic} {others : List Diagnostic}
    (h : alignment.diagnostics = first :: others) (told : List Diagnostic)
    (hne : told.head? ≠ some first) :
    alignment.diagnostics ≠ told ∧ alignment.diagnostics.head? = some first ∧
      alignment.isMatch = false := by
  have hfirst : alignment.diagnostics.head? = some first := by rw [h, List.head?_cons]
  refine ⟨?_, hfirst, isMatch_eq_false_of_cons h⟩
  rintro rfl
  exact hne hfirst

end Alignment

/-! ## Announcing the first mismatch -/

/-- Reading lines announces no mismatch. -/
@[simp] theorem Source.count_firstMismatch_pull (n : Nat) (source : Source) :
    (source.pull n).events.count .firstMismatch = 0 := by
  induction n generalizing source with
  | zero => rfl
  | succ n ih =>
      unfold pull
      split
      · cases h : source.read.failure <;> simp [h, ih]
      · rfl

namespace Reader

@[simp] theorem count_firstMismatch_fill (r : Reader) :
    r.fill.events.count .firstMismatch = 0 := by
  simp [fill]

@[simp] theorem count_firstMismatch_prepare (r : Reader) (pos : Nat) :
    (r.prepare pos).events.count .firstMismatch = 0 := by
  unfold prepare
  split <;> simp

@[simp] theorem count_firstMismatch_skip (r : Reader) (count : Nat) :
    (r.skip count).events.count .firstMismatch = 0 :=
  count_firstMismatch_fill _

@[simp] theorem count_firstMismatch_consume (r : Reader) :
    r.consume.events.count .firstMismatch = 0 := by
  simp [consume]

@[simp] theorem count_firstMismatch_takeShared (self other : Reader) :
    (self.takeShared other).events.count .firstMismatch = 0 := by
  simp only [takeShared, Traced.events_bind, List.count_append, count_firstMismatch_prepare]
  split <;> simp

end Reader

namespace Turn

theorem settle_value_isKeep (e a : Reader) : (settle e a).value.edit.isKeep = false := by
  simp only [settle, Traced.value_bind]
  split
  · rfl
  · simp only [Traced.value_bind]
    split <;> rfl

theorem count_firstMismatch_settle (e a : Reader) :
    (settle e a).events.count .firstMismatch = 0 := by
  simp only [settle, Traced.events_bind, List.count_append, Reader.count_firstMismatch_prepare]
  split
  · simp
  · simp only [Traced.events_bind, List.count_append, Reader.count_firstMismatch_prepare]
    split <;> simp

/-- A turn announces a mismatch exactly when it records something. -/
theorem count_firstMismatch_next (e a : Reader) :
    (next e a).events.count .firstMismatch = (!(next e a).value.edit.isKeep).toNat := by
  simp only [next, Traced.events_bind, Traced.value_bind, List.count_append,
    Reader.count_firstMismatch_takeShared]
  cases (e.takeShared a).value.1 with
  | some line => rfl
  | none => simp [settle_value_isKeep, count_firstMismatch_settle]

theorem count_firstMismatch_drain (e a : Reader) :
    (drain e a).events.count .firstMismatch = (!(drain e a).value.edit.isKeep).toNat := by
  simp only [drain, Traced.events_bind, Traced.value_bind, List.count_append,
    Reader.count_firstMismatch_takeShared]
  cases (a.takeShared e).value.1 with
  | some line => rfl
  | none => simp [Edit.isKeep]

end Turn

namespace Alignment

/-- How many steps record something. -/
def mismatches (alignment : Alignment) : Nat := alignment.edits.countP fun edit => !edit.isKeep

theorem mismatches_prepend (t : Traced LineEvent Turn) (rest : Traced LineEvent Alignment) :
    (prepend t rest).value.mismatches
      = (!t.value.edit.isKeep).toNat + rest.value.mismatches := by
  simp only [mismatches, prepend, List.countP_cons]
  cases t.value.edit.isKeep <;> simp [Nat.add_comm]

theorem mismatches_eq_zero_iff (alignment : Alignment) :
    alignment.mismatches = 0 ↔ alignment.isMatch = true := by
  simp [mismatches, isMatch, List.countP_eq_zero]

theorem count_firstMismatch_ofActual (e a : Reader) :
    (ofActual e a).events.count .firstMismatch = (ofActual e a).value.mismatches := by
  fun_induction ofActual e a with
  | case1 e a _ t _ ih =>
      rw [mismatches_prepend, ← ih, ← Turn.count_firstMismatch_drain]
      exact List.count_append
  | case2 => rfl

theorem count_firstMismatch_ofReaders (e a : Reader) :
    (ofReaders e a).events.count .firstMismatch = (ofReaders e a).value.mismatches := by
  fun_induction ofReaders e a with
  | case1 e a _ t _ ih =>
      rw [mismatches_prepend, ← ih, ← Turn.count_firstMismatch_next]
      exact List.count_append
  | case2 e a _ => exact count_firstMismatch_ofActual e a

/-- Of several announcements the first is passed on, unless there has been one before. -/
theorem count_keepFirstMismatch (seen : Bool) (events : List LineEvent) :
    (keepFirstMismatch seen events).count .firstMismatch
      = if seen = true ∨ events.count .firstMismatch = 0 then 0 else 1 := by
  induction events generalizing seen with
  | nil => simp [keepFirstMismatch]
  | cons event events ih =>
      cases event with
      | readFailed cause => cases seen <;> simp [keepFirstMismatch, ih]
      | firstMismatch => cases seen <;> simp [keepFirstMismatch, ih]

/-- Every recording turn announces a mismatch, and all but the first announcement are held back. -/
theorem count_firstMismatch_run (expected actual : Reader) :
    (run expected actual).events.count .firstMismatch
      = if (run expected actual).value.isMatch then 0 else 1 := by
  have hcount := count_firstMismatch_ofReaders expected actual
  have hzero := mismatches_eq_zero_iff (ofReaders expected actual).value
  simp only [run_eq, count_keepFirstMismatch, hcount, hzero, Bool.false_eq_true, false_or]

/-- **When two readers match.**  They match exactly when what they have left is the same up to blank
lines at the end; that is when nothing is recorded; and the first mismatch is announced once if they
do not match and never if they do. -/
theorem isMatch_run (expected actual : Reader) :
    ((run expected actual).value.isMatch = true ↔
      withoutTrailingBlanks expected.remaining = withoutTrailingBlanks actual.remaining) ∧
    ((run expected actual).value.isMatch = true ↔
      (run expected actual).value.diagnostics = []) ∧
    (run expected actual).events.count .firstMismatch
      = if (run expected actual).value.isMatch then 0 else 1 := by
  refine ⟨?_, isMatch_iff_diagnostics _, count_firstMismatch_run expected actual⟩
  rw [value_run]
  exact isMatch_ofReaders_iff expected actual

end Alignment

end Golden
