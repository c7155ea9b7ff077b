import Mathlib.Data.List.Chain
import Mathlib.Data.List.GetD
import Golden.Proofs.Line.Joined
import Golden.Proofs.Line.Steps

/-!
# Golden.Proofs.Line.Isolated — edits that stand alone are reported as they are

A script is a list of steps taken as a prescription: it has an expected side and an actual side, the
texts that a comparison then gets to see.  Where its edits are `Isolated`, that is, where an
agreement stands between any two of them and no line occurs twice or is blank, the comparison finds
the script again: **it reports exactly the edits, in order** (`Alignment.diagnostics_run_isolated`).

The induction is on the script, and its invariant is that both sides are in step: what is left is
the rest of the script on either side, followed by lines of which nothing is left to tell.  Behind
an edit both sides show the same line, because the next step is an agreement or the script is over
(`Isolated.headD_eq`); that one line of lookahead is what a greedy alignment decides by.  No other
line can be mistaken for it, since lines do not repeat (`Isolated.getD_ne`).
-/

namespace Golden

/-- All lines of a step. -/
def Edit.lines : Edit → List String
  | .keep line | .add line | .remove line => [line]
  | .substitute observed expected => [observed, expected]

/-- A script with an agreement between any two edits, in which no line occurs twice or is blank. -/
structure Isolated (script : List Edit) : Prop where
  apart : script.IsChain fun first second => first.isKeep = true ∨ second.isKeep = true
  nodup : (script.flatMap Edit.lines).Nodup
  nonblank : ∀ line ∈ script.flatMap Edit.lines, line ≠ ""

instance (script : List Edit) : Decidable (Isolated script) :=
  decidable_of_iff
    ((script.IsChain fun first second => first.isKeep = true ∨ second.isKeep = true)
      ∧ (script.flatMap Edit.lines).Nodup ∧ ∀ line ∈ script.flatMap Edit.lines, line ≠ "")
    ⟨fun ⟨apart, nodup, nonblank⟩ => ⟨apart, nodup, nonblank⟩,
      fun ⟨apart, nodup, nonblank⟩ => ⟨apart, nodup, nonblank⟩⟩

/-! ## The sides of a script -/

namespace Edit

theorem expectedSide_subset (edit : Edit) : edit.expectedSide ⊆ edit.lines := by
  cases edit with
  | keep | remove => exact List.Subset.refl _
  | add => exact List.nil_subset _
  | substitute observed expected => exact List.subset_cons_self observed [expected]

theorem actualSide_subset (edit : Edit) : edit.actualSide ⊆ edit.lines := by
  cases edit with
  | keep | add => exact List.Subset.refl _
  | remove => exact List.nil_subset _
  | substitute observed expected => simp [actualSide, lines]

end Edit

/-- A position of a list shows one of its lines, or past the end the empty line. -/
theorem getD_mem_or_blank (lines : List String) (pos : Nat) :
    lines.getD pos "" ∈ lines ∨ lines.getD pos "" = "" := by
  rcases Nat.lt_or_ge pos lines.length with hin | hout
  · left
    rw [List.getD_eq_getElem _ _ hin]
    exact List.getElem_mem hin
  · right
    exact List.getD_eq_default _ _ hout

namespace Isolated

variable {edit : Edit} {script : List Edit} {expectedEnd actualEnd : List String}

theorem tail (h : Isolated (edit :: script)) : Isolated script where
  apart := h.apart.tail
  nodup := (List.nodup_append.mp h.nodup).2.1
  nonblank := fun line hline => h.nonblank line (List.mem_append_right _ hline)

/-- A line of the first step is not blank. -/
theorem ne_blank {line : String} (h : Isolated (edit :: script)) (hline : line ∈ edit.lines) :
    line ≠ "" := h.nonblank line (List.mem_append_left _ hline)

/-- A line of the first step is shown nowhere on a side that is made of later lines. -/
theorem getD_ne {side tail : List String} (h : Isolated (edit :: script)) (line : String)
    (hline : line ∈ edit.lines) (hside : side ⊆ script.flatMap Edit.lines)
    (htail : ∀ l ∈ tail, l = "") (pos : Nat) : line ≠ (side ++ tail).getD pos "" := by
  have hblank := h.ne_blank hline
  intro heq
  rcases getD_mem_or_blank (side ++ tail) pos with hmem | hout
  · rw [← heq] at hmem
    rcases List.mem_append.mp hmem with hlater | hend
    · exact (List.nodup_append.mp h.nodup).2.2 line hline line (hside hlater) rfl
    · exact hblank (htail line hend)
  · exact hblank (heq.trans hout)

/-- Whatever a side takes of each step is made of the lines of the script. -/
theorem flatMap_subset_lines {side : Edit → List String} (hside : ∀ edit, side edit ⊆ edit.lines)
    (script : List Edit) : script.flatMap side ⊆ script.flatMap Edit.lines := by
  intro line hline
  obtain ⟨edit, hedit, hmem⟩ := List.mem_flatMap.mp hline
  exact List.mem_flatMap.mpr ⟨edit, hedit, hside edit hmem⟩

/-- **Behind an edit both sides show the same line**: the next step is an agreement, or the script
is over. -/
theorem headD_eq (h : Isolated (edit :: script)) (hedit : edit.isKeep = false)
    (hexpected : ¬ Meaningful expectedEnd) (hactual : ¬ Meaningful actualEnd) :
    (script.flatMap Edit.expectedSide ++ expectedEnd).headD ""
      = (script.flatMap Edit.actualSide ++ actualEnd).headD "" := by
  cases script with
  | nil =>
      exact (headD_of_not_meaningful hexpected).trans
        (headD_of_not_meaningful hactual).symm
  | cons next script =>
      have hnext : next.isKeep = true := by
        rcases (List.isChain_cons_cons.mp h.apart).1 with hfirst | hsecond
        · exact absurd (hedit.symm.trans hfirst) Bool.false_ne_true
        · exact hsecond
      cases next with
      | keep line => rfl
      | add | remove | substitute => exact absurd hnext Bool.false_ne_true

/-! ## The comparison of the sides -/

/-- **One step**: between the sides of a script the next step is the script's own. -/
theorem between_sides (h : Isolated (edit :: script)) (hexpected : ¬ Meaningful expectedEnd)
    (hactual : ¬ Meaningful actualEnd) :
    Step.between ((edit :: script).flatMap Edit.expectedSide ++ expectedEnd)
        ((edit :: script).flatMap Edit.actualSide ++ actualEnd)
      = ⟨edit, script.flatMap Edit.expectedSide ++ expectedEnd,
          script.flatMap Edit.actualSide ++ actualEnd⟩ := by
  have hbehind := fun hedit => h.headD_eq hedit hexpected hactual
  have hneExpected := fun line hline => h.getD_ne line hline
    (flatMap_subset_lines Edit.expectedSide_subset script) (blank_of_not_meaningful hexpected)
  have hneActual := fun line hline => h.getD_ne line hline
    (flatMap_subset_lines Edit.actualSide_subset script) (blank_of_not_meaningful hactual)
  have hzero : ∀ lines : List String, lines.getD 0 "" = lines.headD "" := by
    intro lines
    cases lines <;> rfl
  cases edit with
  | keep line => exact Step.between_of_eq rfl
  | add line =>
      have hne := hneExpected line List.mem_cons_self 0
      rw [hzero] at hne
      exact Step.between_add (hbehind rfl) hne.symm
  | remove line =>
      have hne := hneActual line List.mem_cons_self
      have hfirst := hne 0
      rw [hzero] at hfirst
      have hline := h.ne_blank List.mem_cons_self
      exact Step.between_remove (hbehind rfl) (meaningful_cons _ hline) hfirst (hne 1)
  | substitute observed line =>
      have hline : line ∈ (Edit.substitute observed line).lines := by simp [Edit.lines]
      have hobserved : observed ∈ (Edit.substitute observed line).lines := List.mem_cons_self
      have hne : line ≠ observed := by
        have hnodup := (List.nodup_append.mp h.nodup).1
        exact fun heq => (List.nodup_cons.mp hnodup).1 (heq ▸ List.mem_cons_self)
      have hlineBehind := hneActual line hline 0
      have hobservedBehind := hneExpected observed hobserved 0
      rw [hzero] at hlineBehind hobservedBehind
      exact Step.between_substitute (meaningful_cons _ (h.ne_blank hline))
        (meaningful_cons _ (h.ne_blank hobserved)) hne hlineBehind hobservedBehind

/-- **All steps**, by induction on the script: what is recorded between its sides is the script. -/
theorem recordedBetween_sides (h : Isolated script) (hexpected : ¬ Meaningful expectedEnd)
    (hactual : ¬ Meaningful actualEnd) :
    recordedBetween (script.flatMap Edit.expectedSide ++ expectedEnd)
        (script.flatMap Edit.actualSide ++ actualEnd)
      = script.flatMap Edit.diagnostics := by
  induction script with
  | nil => exact recordedBetween_of_not_meaningful hexpected hactual
  | cons edit script ih =>
      rw [recordedBetween_eq, h.between_sides hexpected hactual, ih h.tail, List.flatMap_cons]

end Isolated

/-- A text joined from lines has these lines, and after them none that means anything. -/
theorem Source.exists_lines_joinLines {lines : List String} (h : ∀ line ∈ lines, Bare line)
    (closed : Bool) :
    ∃ rest, (ofText (joinLines lines closed)).lines = lines ++ rest ∧ ¬ Meaningful rest := by
  cases lines with
  | nil =>
      refine ⟨_, lines_joinLines_nil closed, ?_⟩
      cases closed <;> decide
  | cons line lines =>
      refine ⟨_, lines_joinLines (List.cons_ne_nil line lines) h closed, ?_⟩
      cases closed <;> decide

/-- **Edits that stand alone are reported as they are.**  Join the expected and the actual side of a
script each to a text, with or without a newline at the end, and compare readers over any two
sources that deliver the lines of these texts: exactly the edits are reported, in order. -/
theorem Alignment.diagnostics_run_isolated {script : List Edit} (h : Isolated script)
    (hbare : ∀ line ∈ script.flatMap Edit.lines, Bare line) (expectedClosed actualClosed : Bool)
    {expected actual : Source}
    (hexpected : expected.lines
      = (Source.ofText (joinLines (script.flatMap Edit.expectedSide) expectedClosed)).lines)
    (hactual : actual.lines
      = (Source.ofText (joinLines (script.flatMap Edit.actualSide) actualClosed)).lines) :
    (run (.ofSource expected) (.ofSource actual)).value.diagnostics
      = script.flatMap Edit.diagnostics := by
  have hexpectedBare : ∀ line ∈ script.flatMap Edit.expectedSide, Bare line := fun line hline =>
    hbare line (Isolated.flatMap_subset_lines Edit.expectedSide_subset script hline)
  have hactualBare : ∀ line ∈ script.flatMap Edit.actualSide, Bare line := fun line hline =>
    hbare line (Isolated.flatMap_subset_lines Edit.actualSide_subset script hline)
  obtain ⟨expectedEnd, hexpectedLines, hexpectedEnd⟩ :=
    Source.exists_lines_joinLines hexpectedBare expectedClosed
  obtain ⟨actualEnd, hactualLines, hactualEnd⟩ :=
    Source.exists_lines_joinLines hactualBare actualClosed
  rw [diagnostics_run_eq (Reader.regular_ofSource expected) (Reader.regular_ofSource actual),
    Reader.remaining_ofSource, Reader.remaining_ofSource, hexpected, hactual, hexpectedLines,
    hactualLines]
  exact h.recordedBetween_sides hexpectedEnd hactualEnd

/-- An edit at the very start, one in the middle and one at the very end; the expected text arrives
in pieces and ends in a newline, the actual text does not. -/
theorem Alignment.diagnostics_run_three_edits :
    let script := [Edit.add "new", .keep "a", .substitute "B" "b", .keep "c", .remove "d"]
    let feed := [Delivery.bytes [0x61, 0x0A, 0x62], .interrupted,
      .bytes [0x0A, 0x63, 0x0A, 0x64, 0x0A]]
    Isolated script ∧ (∀ line ∈ script.flatMap Edit.lines, Bare line) ∧
      (Source.ofDeliveries feed).lines = (Source.ofText "a\nb\nc\nd\n").lines ∧
      (run (.ofDeliveries feed) (.ofText "new\na\nB\nc")).value.diagnostics
        = [⟨.added, "new"⟩, ⟨.observed, "B"⟩, ⟨.expected, "b"⟩, ⟨.removed, "d"⟩] := by
  intro script feed
  have hisolated : Isolated script := by decide
  have hbare : ∀ line ∈ script.flatMap Edit.lines, Bare line := by decide
  have htext : textOfBytes (Delivery.arriving feed) = "a\nb\nc\nd\n" := by decide +kernel
  have hlines : (Source.ofDeliveries feed).lines = (Source.ofText "a\nb\nc\nd\n").lines := by
    rw [Source.lines_ofDeliveries, htext]
  have hexpected : joinLines (script.flatMap Edit.expectedSide) true = "a\nb\nc\nd\n" := by
    decide +kernel
  have hactual : joinLines (script.flatMap Edit.actualSide) false = "new\na\nB\nc" := by
    decide +kernel
  refine ⟨hisolated, hbare, hlines, ?_⟩
  exact Alignment.diagnostics_run_isolated hisolated hbare true false
    (hlines.trans (by rw [hexpected])) (by rw [hactual])

end Golden
