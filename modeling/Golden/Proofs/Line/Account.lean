import Mathlib.Data.List.DropRight
import Golden.Proofs.Line.Collected
import Golden.Proofs.Line.Remaining

/-!
# Golden.Proofs.Line.Account — an alignment accounts for every line

An alignment is a list of steps.  Here it is read as an account of two lists of lines: every step
says what it takes from either (`Edit.Takes`), and a list of steps accounts for both lists when it
takes them apart until only blank lines are left (`Accounts`).

The one liberty a step has is at the end of a side.  A side that has nothing left shows the empty
line, so a blank line on the other side agrees with it and is kept, although only one of the two
lists gave it up.  Nothing else is ever taken from an empty list: **a step that records something
records lines that were there** (`Accounts.recorded_sublist`), and the lines of all steps, in order,
are the lines of either side up to blank ones at the end (`Accounts.sides`).

`Turn.next_takes` and `Turn.drain_takes` are about one turn; `Alignment.accounts_ofReaders` follows
by induction on the turns, in whatever order the branches were taken.
-/

namespace Golden

/-! ## Blank lines at the end -/

/-- Lines without the blank ones at their end. -/
def withoutTrailingBlanks (lines : List String) : List String := lines.rdropWhile (· == "")

theorem withoutTrailingBlanks_eq_nil {lines : List String} :
    withoutTrailingBlanks lines = [] ↔ ∀ line ∈ lines, line = "" := by
  simp [withoutTrailingBlanks, List.rdropWhile_eq_nil_iff]

theorem withoutTrailingBlanks_concat (lines : List String) (last : String) :
    withoutTrailingBlanks (lines ++ [last])
      = if last = "" then withoutTrailingBlanks lines else lines ++ [last] := by
  simp [withoutTrailingBlanks, List.rdropWhile_concat]

/-- A line in front is dropped only with everything behind it. -/
theorem withoutTrailingBlanks_cons (line : String) (lines : List String) :
    withoutTrailingBlanks (line :: lines)
      = if line = "" ∧ withoutTrailingBlanks lines = [] then []
        else line :: withoutTrailingBlanks lines := by
  -- from the end, where the last line decides whether anything is dropped at all
  induction lines using List.reverseRecOn with
  | nil => by_cases h : line = "" <;> simp [withoutTrailingBlanks, List.rdropWhile_singleton, h]
  | append_singleton lines last ih =>
      have hcons := withoutTrailingBlanks_concat (line :: lines) last
      rw [List.cons_append] at hcons
      by_cases h : last = ""
      · simp only [hcons, withoutTrailingBlanks_concat, if_pos h]
        exact ih
      · simp [hcons, withoutTrailingBlanks_concat, h]

theorem withoutTrailingBlanks_cons_congr (line : String) {lines others : List String}
    (h : withoutTrailingBlanks lines = withoutTrailingBlanks others) :
    withoutTrailingBlanks (line :: lines) = withoutTrailingBlanks (line :: others) := by
  rw [withoutTrailingBlanks_cons, withoutTrailingBlanks_cons, h]

/-- Lists that agree up to trailing blank lines agree in what they show first and in the rest. -/
theorem headD_and_tail_of_withoutTrailingBlanks {lines others : List String}
    (h : withoutTrailingBlanks lines = withoutTrailingBlanks others) :
    lines.headD "" = others.headD "" ∧
      withoutTrailingBlanks lines.tail = withoutTrailingBlanks others.tail := by
  have hnil : withoutTrailingBlanks [] = [] := rfl
  -- a list of blank lines shows the empty line first, like one that has none
  cases lines with
  | nil =>
      cases others with
      | nil => exact ⟨rfl, rfl⟩
      | cons other others =>
          rw [hnil, withoutTrailingBlanks_cons] at h
          split at h
          · rename_i hblank
            exact ⟨hblank.1.symm, hblank.2.symm⟩
          · cases h
  | cons line lines =>
      cases others with
      | nil =>
          rw [hnil, withoutTrailingBlanks_cons] at h
          split at h
          · rename_i hblank
            exact ⟨hblank.1, hblank.2⟩
          · cases h
      | cons other others =>
          rw [withoutTrailingBlanks_cons, withoutTrailingBlanks_cons] at h
          split at h
          · rename_i hblank
            split at h
            · rename_i hblank'
              exact ⟨hblank.1.trans hblank'.1.symm, hblank.2.trans hblank'.2.symm⟩
            · cases h
          · split at h
            · cases h
            · exact ⟨(List.cons.inj h).1, (List.cons.inj h).2⟩

/-! ## What a step takes -/

namespace Edit

/-- The line of a step that the expected side has. -/
def expectedSide : Edit → List String
  | .keep line => [line]
  | .add _ => []
  | .remove line => [line]
  | .substitute _ expected => [expected]

/-- The line of a step that the actual side has. -/
def actualSide : Edit → List String
  | .keep line => [line]
  | .add line => [line]
  | .remove _ => []
  | .substitute observed _ => [observed]

/-- The lines a step records about the expected side. -/
def recordedExpected (edit : Edit) : List String :=
  if edit.isKeep then [] else edit.expectedSide

/-- The lines a step records about the actual side. -/
def recordedActual (edit : Edit) : List String := if edit.isKeep then [] else edit.actualSide

/-- A step takes its lines from the front of what is left on either side.  An agreement about a
blank line may take it from one side alone, the other having nothing left. -/
inductive Takes : Edit → List String → List String → List String → List String → Prop
  | keep (line : String) (expected actual : List String) :
      Takes (.keep line) (line :: expected) (line :: actual) expected actual
  | keepExpected (expected : List String) : Takes (.keep "") ("" :: expected) [] expected []
  | keepActual (actual : List String) : Takes (.keep "") [] ("" :: actual) [] actual
  | add (line : String) (expected actual : List String) :
      Takes (.add line) expected (line :: actual) expected actual
  | remove (line : String) (expected actual : List String) :
      Takes (.remove line) (line :: expected) actual expected actual
  | substitute (observed line : String) (expected actual : List String) :
      Takes (.substitute observed line) (line :: expected) (observed :: actual) expected actual

variable {edit : Edit} {expected actual expected' actual' : List String}

/-- What is left of a side was there before. -/
theorem Takes.mem_expected (h : Takes edit expected actual expected' actual') :
    ∀ line ∈ expected', line ∈ expected := by
  intro line hline
  cases h with
  | keep | keepExpected | remove | substitute => exact List.mem_cons_of_mem _ hline
  | keepActual | add => exact hline

/-- Two sides that show the same line, unless both have nothing left, agree about it. -/
theorem Takes.keep_headD {expected actual : List String} (hsome : expected ≠ [] ∨ actual ≠ [])
    (heq : expected.headD "" = actual.headD "") :
    Takes (.keep (expected.headD "")) expected actual expected.tail actual.tail := by
  cases expected with
  | nil =>
      cases actual with
      | nil =>
          rcases hsome with hne | hne
          · exact absurd rfl hne
          · exact absurd rfl hne
      | cons m ms =>
          obtain rfl : "" = m := heq
          exact .keepActual ms
  | cons l ls =>
      cases actual with
      | nil =>
          obtain rfl : l = "" := heq
          exact .keepExpected ls
      | cons m ms =>
          obtain rfl : l = m := heq
          exact .keep l ls ms

end Edit

/-- Steps that take two lists of lines apart until nothing but blank lines is left of them. -/
inductive Accounts : List Edit → List String → List String → Prop
  | done {expected actual : List String} (hexpected : ∀ line ∈ expected, line = "")
      (hactual : ∀ line ∈ actual, line = "") : Accounts [] expected actual
  | step {edit : Edit} {edits : List Edit} {expected actual expected' actual' : List String}
      (htakes : edit.Takes expected actual expected' actual')
      (hrest : Accounts edits expected' actual') : Accounts (edit :: edits) expected actual

namespace Accounts

variable {edits : List Edit} {expected actual : List String}

/-- **The lines of the steps are the lines of the two sides**, up to blank ones at the end. -/
theorem sides (h : Accounts edits expected actual) :
    withoutTrailingBlanks (edits.flatMap Edit.expectedSide) = withoutTrailingBlanks expected ∧
      withoutTrailingBlanks (edits.flatMap Edit.actualSide) = withoutTrailingBlanks actual := by
  induction h with
  | done hexpected hactual =>
      exact ⟨(withoutTrailingBlanks_eq_nil.mpr hexpected).symm,
        (withoutTrailingBlanks_eq_nil.mpr hactual).symm⟩
  | step htakes _ ih =>
      obtain ⟨ihe, iha⟩ := ih
      cases htakes with
      | keep line =>
          exact ⟨withoutTrailingBlanks_cons_congr line ihe, withoutTrailingBlanks_cons_congr line iha⟩
      | keepExpected =>
          refine ⟨withoutTrailingBlanks_cons_congr "" ihe, ?_⟩
          exact (withoutTrailingBlanks_cons_congr "" iha).trans rfl
      | keepActual =>
          refine ⟨?_, withoutTrailingBlanks_cons_congr "" iha⟩
          exact (withoutTrailingBlanks_cons_congr "" ihe).trans rfl
      | add line => exact ⟨ihe, withoutTrailingBlanks_cons_congr line iha⟩
      | remove line => exact ⟨withoutTrailingBlanks_cons_congr line ihe, iha⟩
      | substitute observed line =>
          exact ⟨withoutTrailingBlanks_cons_congr line ihe,
            withoutTrailingBlanks_cons_congr observed iha⟩

/-- **Every recorded line was there**: what is recorded about a side, in order, is a selection of
its lines. -/
theorem recorded_sublist (h : Accounts edits expected actual) :
    (edits.flatMap Edit.recordedExpected).Sublist expected ∧
      (edits.flatMap Edit.recordedActual).Sublist actual := by
  induction h with
  | done => exact ⟨List.nil_sublist _, List.nil_sublist _⟩
  | step htakes _ ih =>
      obtain ⟨ihe, iha⟩ := ih
      cases htakes with
      | keep line => exact ⟨ihe.cons line, iha.cons line⟩
      | keepExpected => exact ⟨ihe.cons "", iha⟩
      | keepActual => exact ⟨ihe, iha.cons ""⟩
      | add line => exact ⟨ihe, iha.cons_cons line⟩
      | remove line => exact ⟨ihe.cons_cons line, iha⟩
      | substitute observed line => exact ⟨ihe.cons_cons line, iha.cons_cons observed⟩

end Accounts

/-! ## One turn -/

namespace Turn

/-- Settling a mismatch takes what it records, provided the expected side has something left. -/
theorem settle_takes {e a : Reader} (he : e.remaining ≠ [])
    (hne : e.remaining.headD "" ≠ a.remaining.headD "") :
    (settle e a).value.edit.Takes e.remaining a.remaining
      (settle e a).value.expected.remaining (settle e a).value.actual.remaining := by
  obtain ⟨l, ls, hE⟩ := List.exists_cons_of_ne_nil he
  have hsecond : (a.prepare 1).value.line 1 = a.remaining.getD 1 "" :=
    Reader.line_prepare a (Nat.le_refl 1) (by decide)
  simp only [settle, Traced.value_bind]
  split
  · rename_i hcond
    -- an actual side with nothing left would show the empty line at both positions, and so would
    -- the expected side
    have ha : a.remaining ≠ [] := by
      intro hA
      rcases hcond with hline | hlines
      · rw [Reader.line_zero_prepare, hsecond, hA] at hline
        exact hne (by rw [hline, hA]; rfl)
      · have hblank := Reader.blank_of_hasLines_eq_false hlines
        rw [Reader.remaining_prepare, hE] at hblank
        exact hne (by rw [hE, hA]; exact hblank l (List.mem_cons_self ..))
    obtain ⟨m, ms, hA⟩ := List.exists_cons_of_ne_nil ha
    simp only [Traced.value_bind, Traced.value_pure, Reader.consume_line, Reader.remaining_consume,
      Reader.remaining_prepare, hA]
    exact .add m e.remaining ms
  · simp only [Traced.value_bind]
    split
    · simp only [Traced.value_bind, Traced.value_pure, Reader.consume_line,
        Reader.remaining_consume, Reader.remaining_prepare, hE]
      exact .remove l ls a.remaining
    · rename_i hcond
      have hlines : ((a.prepare 1).value.prepare 0).value.hasLines = true := by
        cases h : ((a.prepare 1).value.prepare 0).value.hasLines with
        | true => rfl
        | false => exact absurd (Or.inr h) hcond
      have ha := Reader.remaining_ne_nil hlines
      rw [Reader.remaining_prepare, Reader.remaining_prepare] at ha
      obtain ⟨m, ms, hA⟩ := List.exists_cons_of_ne_nil ha
      simp only [Traced.value_bind, Traced.value_pure, Reader.consume_line,
        Reader.remaining_consume, Reader.remaining_prepare, hE, hA]
      exact .substitute m l ls ms

/-- A turn while something is expected takes what it says from both sides. -/
theorem next_takes {e a : Reader} (h : e.hasLines = true) :
    (next e a).value.edit.Takes e.remaining a.remaining
      (next e a).value.expected.remaining (next e a).value.actual.remaining := by
  have he := Reader.remaining_ne_nil h
  have hshared := Reader.takeShared_value e a
  simp only [next, Traced.value_bind]
  by_cases heq : e.remaining.headD "" = a.remaining.headD ""
  · rw [if_pos heq] at hshared
    obtain ⟨hline, hrest, hotherRest⟩ := hshared
    rw [hline]
    simp only [Traced.value_pure, hrest, hotherRest]
    exact .keep_headD (Or.inl he) heq
  · rw [if_neg heq] at hshared
    rw [hshared]
    have hsettle := settle_takes (e := (e.prepare 0).value) (a := (a.prepare 0).value)
    simp only [Reader.remaining_prepare] at hsettle
    exact hsettle he heq

/-- A turn once nothing is expected takes what it says from both sides. -/
theorem drain_takes {e a : Reader} (h : a.hasLines = true) :
    (drain e a).value.edit.Takes e.remaining a.remaining
      (drain e a).value.expected.remaining (drain e a).value.actual.remaining := by
  have ha := Reader.remaining_ne_nil h
  have hshared := Reader.takeShared_value a e
  simp only [drain, Traced.value_bind]
  by_cases heq : a.remaining.headD "" = e.remaining.headD ""
  · rw [if_pos heq] at hshared
    obtain ⟨hline, hrest, hotherRest⟩ := hshared
    rw [hline, heq]
    simp only [Traced.value_pure, hrest, hotherRest]
    exact .keep_headD (Or.inr ha) heq.symm
  · rw [if_neg heq] at hshared
    rw [hshared]
    obtain ⟨m, ms, hA⟩ := List.exists_cons_of_ne_nil ha
    simp only [Traced.value_bind, Traced.value_pure, Reader.consume_line, Reader.remaining_consume,
      Reader.remaining_prepare, hA]
    exact .add m e.remaining ms

end Turn

/-! ## All turns -/

namespace Alignment

theorem accounts_ofActual {e a : Reader} (he : ∀ line ∈ e.remaining, line = "") :
    Accounts (ofActual e a).value.edits e.remaining a.remaining := by
  fun_induction ofActual e a with
  | case1 e a h t _ ih =>
      -- what is left of the expected side stays blank, so that it may be left over at the end
      have htakes := Turn.drain_takes (e := e) h
      exact .step htakes (ih fun line hline => he line (htakes.mem_expected line hline))
  | case2 e a h => exact .done he (Reader.blank_of_hasLines_eq_false (Bool.eq_false_iff.mpr h))

/-- **An alignment accounts for every line** both readers had left. -/
theorem accounts_ofReaders (e a : Reader) :
    Accounts (ofReaders e a).value.edits e.remaining a.remaining := by
  fun_induction ofReaders e a with
  | case1 e a h t _ ih => exact .step (Turn.next_takes h) ih
  | case2 e a h =>
      exact accounts_ofActual (Reader.blank_of_hasLines_eq_false (Bool.eq_false_iff.mpr h))

/-- **The diagnostics are a faithful account of both sides.**  They are the steps of an alignment
written out in order; the steps, agreements included, give back the lines of either side up to blank
ones at the end; and what they record about a side, in order, are lines that it had. -/
theorem diagnostics_run_faithful (expected actual : Reader) :
    ∃ steps : List Edit,
      (run expected actual).value.diagnostics = steps.flatMap Edit.diagnostics ∧
      withoutTrailingBlanks (steps.flatMap Edit.expectedSide)
        = withoutTrailingBlanks expected.remaining ∧
      withoutTrailingBlanks (steps.flatMap Edit.actualSide)
        = withoutTrailingBlanks actual.remaining ∧
      (steps.flatMap Edit.recordedExpected).Sublist expected.remaining ∧
      (steps.flatMap Edit.recordedActual).Sublist actual.remaining := by
  rw [value_run]
  have haccounts := accounts_ofReaders expected actual
  obtain ⟨hexpected, hactual⟩ := haccounts.sides
  obtain ⟨hrecordedExpected, hrecordedActual⟩ := haccounts.recorded_sublist
  exact ⟨_, rfl, hexpected, hactual, hrecordedExpected, hrecordedActual⟩

end Alignment

end Golden
