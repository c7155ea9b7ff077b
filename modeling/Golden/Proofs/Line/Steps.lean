import Golden.Proofs.Line.Progress
import Golden.Proofs.Line.Window

/-!
# Golden.Proofs.Line.Steps — what an alignment records depends on the lines alone

Which step a turn takes can be said without readers: it looks at the first two lines that either
side has left, and at whether what is left is `Meaningful` (`Step.between`).  Taking such steps as
long as either side is meaningful gives a list of steps from two lists of lines (`stepsBetween`).

**A run of two regular readers records what these steps record** (`diagnostics_run_eq`), whatever
had been pulled before.  The steps themselves may differ, and only in this: a reader that has not
been asked for a line yet claims to have some even if all of them are blank, so its run can go on
over blank lines where the list of steps has ended.  Such a turn is an agreement and records nothing
(`recordedBetween_eq`), which is why the two loops of an alignment need not be told apart here:
where nothing meaningful is expected both take the same step.
-/

namespace Golden

/-- A step between two lists of lines, and what it leaves of either. -/
structure Step where
  edit : Edit
  expected : List String
  actual : List String
  deriving DecidableEq, Repr

namespace Step

/-- The step that a turn takes between the lines that are left. -/
def between (expected actual : List String) : Step :=
  if expected.headD "" = actual.headD "" then
    ⟨.keep (expected.headD ""), expected.tail, actual.tail⟩
  else if expected.headD "" = actual.getD 1 "" ∨ ¬ Meaningful expected then
    ⟨.add (actual.headD ""), expected, actual.tail⟩
  else if expected.getD 1 "" = actual.headD "" ∨ ¬ Meaningful actual then
    ⟨.remove (expected.headD ""), expected.tail, actual⟩
  else ⟨.substitute (actual.headD "") (expected.headD ""), expected.tail, actual.tail⟩

variable {expected actual : List String}

theorem between_of_eq (h : expected.headD "" = actual.headD "") :
    between expected actual = ⟨.keep (expected.headD ""), expected.tail, actual.tail⟩ := by
  rw [between, if_pos h]

/-! ### Which step it is

Behind a line that only one side has, both sides show the same line; of two lines that stand in
place of each other, neither is shown on the other side right behind.  These are the conditions
under which that makes out what happened. -/

/-- The second of some lines is the first behind the first. -/
theorem getD_one_cons (line : String) (lines : List String) :
    (line :: lines).getD 1 "" = lines.headD "" := by
  cases lines <;> rfl

/-- A meaningful side stays to be told if its first line is not the one shown on the other. -/
theorem not_passed {line shown : String} {lines : List String} (hlines : Meaningful (line :: lines))
    (hne : line ≠ shown) : ¬ (line = shown ∨ ¬ Meaningful (line :: lines)) := by
  rintro (hsame | hblank)
  · exact hne hsame
  · exact hblank hlines

theorem between_add {line : String} (hbehind : expected.headD "" = actual.headD "")
    (hne : expected.headD "" ≠ line) :
    between expected (line :: actual) = ⟨.add line, expected, actual⟩ := by
  have hkeep : ¬ expected.headD "" = (line :: actual).headD "" := hne
  have hadd : expected.headD "" = (line :: actual).getD 1 "" := by rw [getD_one_cons, hbehind]
  rw [between, if_neg hkeep, if_pos (Or.inl hadd)]
  rfl

theorem between_remove {line : String} (hbehind : expected.headD "" = actual.headD "")
    (hexpected : Meaningful (line :: expected)) (hfirst : line ≠ actual.headD "") (hsecond : line ≠ actual.getD 1 "") :
    between (line :: expected) actual = ⟨.remove line, expected, actual⟩ := by
  have hkeep : ¬ (line :: expected).headD "" = actual.headD "" := hfirst
  have hadd : ¬ ((line :: expected).headD "" = actual.getD 1 ""
      ∨ ¬ Meaningful (line :: expected)) := not_passed hexpected hsecond
  have hremove : (line :: expected).getD 1 "" = actual.headD "" := by rw [getD_one_cons, hbehind]
  rw [between, if_neg hkeep, if_neg hadd, if_pos (Or.inl hremove)]
  rfl

theorem between_substitute {line observed : String} (hexpected : Meaningful (line :: expected))
    (hactual : Meaningful (observed :: actual)) (hne : line ≠ observed)
    (hlineBehind : line ≠ actual.headD "")
    (hobservedBehind : observed ≠ expected.headD "") :
    between (line :: expected) (observed :: actual)
      = ⟨.substitute observed line, expected, actual⟩ := by
  have hkeep : ¬ (line :: expected).headD "" = (observed :: actual).headD "" := hne
  have hadd : ¬ ((line :: expected).headD "" = (observed :: actual).getD 1 ""
      ∨ ¬ Meaningful (line :: expected)) := by
    rw [getD_one_cons]
    exact not_passed hexpected hlineBehind
  have hremove : ¬ ((line :: expected).getD 1 "" = (observed :: actual).headD ""
      ∨ ¬ Meaningful (observed :: actual)) := by
    rw [getD_one_cons, eq_comm]
    exact not_passed hactual hobservedBehind
  rw [between, if_neg hkeep, if_neg hadd, if_neg hremove]
  rfl

/-! ### What a step takes -/

/-- A step takes what it says, if there is anything to take. -/
theorem between_takes (h : expected ≠ [] ∨ actual ≠ []) :
    (between expected actual).edit.Takes expected actual (between expected actual).expected
      (between expected actual).actual := by
  unfold between
  split
  · rename_i heq
    exact .keep_headD h heq
  · rename_i hne
    split
    · rename_i hadd
      cases actual with
      | nil =>
          -- an actual side with nothing left shows the empty line twice, as the expected side would
          refine absurd ?_ hne
          rcases hadd with hline | hblank
          · exact hline
          · exact headD_of_not_meaningful hblank
      | cons line actual => exact .add line expected actual
    · rename_i hadd
      cases expected with
      | nil => exact absurd (Or.inr not_meaningful_nil) hadd
      | cons line expected =>
          split
          · exact .remove line expected actual
          · rename_i hremove
            cases actual with
            | nil => exact absurd (Or.inr not_meaningful_nil) hremove
            | cons observed actual => exact .substitute observed line expected actual

end Step

/-- The steps between two lists of lines, as long as either has anything meaningful. -/
def stepsBetween (expected actual : List String) : List Edit :=
  if h : Meaningful expected ∨ Meaningful actual then
    let step := Step.between expected actual
    have : step.expected.length + step.actual.length < expected.length + actual.length :=
      (Step.between_takes (h.imp ne_nil_of_meaningful ne_nil_of_meaningful)).length_lt
    step.edit :: stepsBetween step.expected step.actual
  else []
termination_by expected.length + actual.length

/-- What is recorded between two lists of lines. -/
def recordedBetween (expected actual : List String) : List Diagnostic :=
  (stepsBetween expected actual).flatMap Edit.diagnostics

theorem recordedBetween_of_not_meaningful {expected actual : List String}
    (he : ¬ Meaningful expected) (ha : ¬ Meaningful actual) :
    recordedBetween expected actual = [] := by
  rw [recordedBetween, stepsBetween, dif_neg (not_or.mpr ⟨he, ha⟩)]
  rfl

/-- **One step**, whether or not anything meaningful is left: without it the step is a silent
agreement about blank lines, and still nothing meaningful is left. -/
theorem recordedBetween_eq (expected actual : List String) :
    recordedBetween expected actual
      = (Step.between expected actual).edit.diagnostics
        ++ recordedBetween (Step.between expected actual).expected
            (Step.between expected actual).actual := by
  by_cases h : Meaningful expected ∨ Meaningful actual
  · rw [recordedBetween, stepsBetween, dif_pos h, List.flatMap_cons]
    rfl
  · obtain ⟨he, ha⟩ := not_or.mp h
    have heq : expected.headD "" = actual.headD "" := by
      rw [headD_of_not_meaningful he, headD_of_not_meaningful ha]
    rw [Step.between_of_eq heq, recordedBetween_of_not_meaningful he ha,
      recordedBetween_of_not_meaningful (not_meaningful_tail he) (not_meaningful_tail ha)]
    rfl

/-- The same line in front of both sides is passed over. -/
theorem recordedBetween_cons_cons (line : String) (expected actual : List String) :
    recordedBetween (line :: expected) (line :: actual) = recordedBetween expected actual := by
  have hstep : Step.between (line :: expected) (line :: actual) = ⟨.keep line, expected, actual⟩ :=
    Step.between_of_eq rfl
  rw [recordedBetween_eq, hstep]
  rfl

/-- Lines that stand in front of both sides are passed over. -/
theorem recordedBetween_append (shared expected actual : List String) :
    recordedBetween (shared ++ expected) (shared ++ actual) = recordedBetween expected actual := by
  induction shared with
  | nil => rfl
  | cons line shared ih =>
      rw [List.cons_append, List.cons_append, recordedBetween_cons_cons, ih]

/-- Lines as those up to a place, the one there, and those behind it. -/
theorem take_append_cons_drop {lines : List String} {line : String} {place : Nat}
    (h : lines[place]? = some line) :
    lines.take place ++ line :: lines.drop (place + 1) = lines := by
  obtain ⟨hplace, rfl⟩ := List.getElem?_eq_some_iff.mp h
  rw [List.getElem_cons_drop, List.take_append_drop]

theorem headD_drop (lines : List String) (place : Nat) :
    (lines.drop place).headD "" = lines.getD place "" := by
  rw [List.headD_eq_head?_getD, List.head?_drop, List.getD_eq_getElem?_getD]

/-- Nothing is recorded between lines and themselves. -/
theorem recordedBetween_self (lines : List String) : recordedBetween lines lines = [] := by
  induction lines with
  | nil => exact recordedBetween_of_not_meaningful not_meaningful_nil not_meaningful_nil
  | cons line lines ih => rw [recordedBetween_cons_cons, ih]

/-! ## Turns as steps -/

theorem Reader.Regular.not_meaningful {r : Reader} (h : r.Regular) (hlines : r.hasLines = false) :
    ¬ Meaningful r.remaining := by
  rcases h with hwindow | hfilled
  · have hnil : r.remaining = [] := by
      rw [Reader.remaining, hwindow, (Reader.hasLines_eq_false_iff.mp hlines).1, List.append_nil]
    rw [hnil]
    exact not_meaningful_nil
  · rw [hfilled.hasLines_eq] at hlines
    exact of_decide_eq_false hlines

namespace Turn

/-- The turn takes the step between the lines both readers had left, and leaves both regular. -/
structure Follows (t : Turn) (step : Step) : Prop where
  edit : t.edit = step.edit
  expected_remaining : t.expected.remaining = step.expected
  actual_remaining : t.actual.remaining = step.actual
  expected_regular : t.expected.Regular
  actual_regular : t.actual.Regular

variable {e a : Reader}

theorem settle_follows (he : e.Regular) (ha : a.Regular)
    (hne : e.remaining.headD "" ≠ a.remaining.headD "") :
    (settle e a).value.Follows (Step.between e.remaining a.remaining) := by
  -- the branches look into the windows one after another, each as the last look has left it
  have hexpected := he.prepare 0
  have hactual := ha.prepare 1
  have hagain := hexpected.regular.prepare 1
  have hback := hactual.regular.prepare 0
  have hsecond : (a.prepare 1).value.line 1 = a.remaining.getD 1 "" :=
    Reader.line_prepare a (Nat.le_refl 1) (by decide)
  have hafter : ((e.prepare 0).value.prepare 1).value.line 1 = e.remaining.getD 1 "" := by
    rw [Reader.line_prepare _ (Nat.le_refl 1) (by decide), Reader.remaining_prepare]
  have hexpectedLines : (e.prepare 0).value.hasLines = false ↔ ¬ Meaningful e.remaining := by
    rw [hexpected.hasLines_eq, Reader.remaining_prepare, decide_eq_false_iff_not]
  have hactualLines :
      ((a.prepare 1).value.prepare 0).value.hasLines = false ↔ ¬ Meaningful a.remaining := by
    rw [hback.hasLines_eq, Reader.remaining_prepare, Reader.remaining_prepare,
      decide_eq_false_iff_not]
  simp only [settle, Traced.value_bind, Step.between, if_neg hne, Reader.line_zero_prepare, hsecond,
    hexpectedLines]
  split
  · exact {
      edit := by simp [Reader.consume_line]
      expected_remaining := by simp
      actual_remaining := by simp [Reader.remaining_consume]
      expected_regular := hexpected.regular
      actual_regular := hactual.regular.consume.regular }
  · simp only [Traced.value_bind, Reader.line_zero_prepare, Reader.remaining_prepare, hafter,
      hactualLines]
    split
    · exact {
        edit := by simp [Reader.consume_line]
        expected_remaining := by simp [Reader.remaining_consume]
        actual_remaining := by simp
        expected_regular := hagain.regular.consume.regular
        actual_regular := hback.regular }
    · exact {
        edit := by simp [Reader.consume_line]
        expected_remaining := by simp [Reader.remaining_consume]
        actual_remaining := by simp [Reader.remaining_consume]
        expected_regular := hagain.regular.consume.regular
        actual_regular := hback.regular.consume.regular }

theorem next_follows (he : e.Regular) (ha : a.Regular) :
    (next e a).value.Follows (Step.between e.remaining a.remaining) := by
  have hshared := Reader.takeShared_value e a
  have hregular := he.takeShared ha
  simp only [next, Traced.value_bind]
  by_cases heq : e.remaining.headD "" = a.remaining.headD ""
  · rw [if_pos heq] at hshared
    obtain ⟨hline, hrest, hotherRest⟩ := hshared
    rw [hline, Step.between_of_eq heq]
    exact ⟨rfl, hrest, hotherRest, hregular.1.regular, hregular.2.regular⟩
  · rw [if_neg heq] at hshared
    rw [hshared]
    have hsettle := settle_follows (he.prepare 0).regular (ha.prepare 0).regular
    simp only [Reader.remaining_prepare] at hsettle
    exact hsettle heq

/-- Once nothing meaningful is expected, the other loop takes the same step. -/
theorem drain_follows (he : e.Regular) (ha : a.Regular) (hblank : ¬ Meaningful e.remaining) :
    (drain e a).value.Follows (Step.between e.remaining a.remaining) := by
  have hshared := Reader.takeShared_value a e
  have hregular := ha.takeShared he
  simp only [drain, Traced.value_bind]
  by_cases heq : a.remaining.headD "" = e.remaining.headD ""
  · rw [if_pos heq] at hshared
    obtain ⟨hline, hrest, hotherRest⟩ := hshared
    rw [hline, Step.between_of_eq heq.symm, heq]
    exact ⟨rfl, hotherRest, hrest, hregular.2.regular, hregular.1.regular⟩
  · rw [if_neg heq] at hshared
    rw [hshared, Step.between, if_neg (Ne.symm heq), if_pos (Or.inr hblank)]
    exact {
      edit := by simp [Reader.consume_line]
      expected_remaining := Reader.remaining_prepare e 0
      actual_remaining := by simp [Reader.remaining_consume]
      expected_regular := (he.prepare 0).regular
      actual_regular := (ha.prepare 0).regular.consume.regular }

/-- What a turn that takes a step records, followed by what is recorded between the lines left. -/
theorem Follows.recordedBetween {t : Turn} (h : t.Follows (Step.between e.remaining a.remaining)) :
    t.edit.diagnostics ++ recordedBetween t.expected.remaining t.actual.remaining
      = recordedBetween e.remaining a.remaining := by
  rw [h.edit, h.expected_remaining, h.actual_remaining, ← recordedBetween_eq]

end Turn

namespace Alignment

theorem diagnostics_prepend (t : Traced LineEvent Turn) (rest : Traced LineEvent Alignment) :
    (prepend t rest).value.diagnostics = t.value.edit.diagnostics ++ rest.value.diagnostics :=
  List.flatMap_cons

theorem diagnostics_ofActual {e a : Reader} (he : e.Regular) (ha : a.Regular)
    (hnone : e.hasLines = false) :
    (ofActual e a).value.diagnostics = recordedBetween e.remaining a.remaining := by
  fun_induction ofActual e a with
  | case1 e a h t _ ih =>
      have hfollows := Turn.drain_follows he ha (he.not_meaningful hnone)
      rw [diagnostics_prepend, ← hfollows.recordedBetween]
      congr 1
      exact ih hfollows.expected_regular hfollows.actual_regular (Turn.hasLines_drain a hnone)
  | case2 e a h =>
      rw [recordedBetween_of_not_meaningful (he.not_meaningful hnone)
        (ha.not_meaningful (Bool.eq_false_iff.mpr h))]
      rfl

theorem diagnostics_ofReaders {e a : Reader} (he : e.Regular) (ha : a.Regular) :
    (ofReaders e a).value.diagnostics = recordedBetween e.remaining a.remaining := by
  fun_induction ofReaders e a with
  | case1 e a h t _ ih =>
      have hfollows := Turn.next_follows he ha
      rw [diagnostics_prepend, ← hfollows.recordedBetween]
      congr 1
      exact ih hfollows.expected_regular hfollows.actual_regular
  | case2 e a h => exact diagnostics_ofActual he ha (Bool.eq_false_iff.mpr h)

/-- **What is recorded depends on the lines alone**, not on what either reader had in view. -/
theorem diagnostics_run_eq {expected actual : Reader} (he : expected.Regular)
    (ha : actual.Regular) :
    (run expected actual).value.diagnostics
      = recordedBetween expected.remaining actual.remaining := by
  rw [value_run]
  exact diagnostics_ofReaders he ha

/-- For readers that have not been asked for anything these are the lines of their sources. -/
theorem diagnostics_run_ofSource (expected actual : Source) :
    (run (.ofSource expected) (.ofSource actual)).value.diagnostics
      = recordedBetween expected.lines actual.lines :=
  diagnostics_run_eq (Reader.regular_ofSource expected) (Reader.regular_ofSource actual)

/-- Against five blank lines, which the window shows to be all there is, two lines are extra. -/
example : recordedBetween (List.replicate 5 "") ["x", "y"] = [⟨.added, "x"⟩, ⟨.added, "y"⟩] := by
  decide +kernel

/-- Against six, of which the last is out of view, the first stands in place of a blank line. -/
example :
    recordedBetween (List.replicate 6 "") ["x", "y"]
      = [⟨.observed, "x"⟩, ⟨.expected, ""⟩, ⟨.added, "y"⟩] := by
  decide +kernel

end Alignment

end Golden
