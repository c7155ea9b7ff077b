import Golden.Proofs.Line.Joined
import Golden.Proofs.Line.Steps
import Golden.Proofs.Line.Verdict

/-!
# Golden.Proofs.Line.Inserted — one line more than expected

The actual lines are the expected ones with one line more, at any place.  Lines may repeat and may
be blank, so a comparison need not notice the new line where it stands: it first passes over all
lines in front of it, and then over a run of lines that are equal to it.  It notices at the end of
that run, where the next expected line is the one behind the next actual line, and from there both
sides are the same.  **So exactly the new line is reported as added**
(`Alignment.diagnostics_run_inserted`).

The run may also go on to the end of the expected lines.  Then the new line is what is left of the
actual side, which counts for nothing if the line is blank.  This is the only case in which it is
not reported, and it is the case in which the line and all that were expected from its place on are
blank.
-/

namespace Golden

/-- A line in front of the expected ones is noticed behind the run of lines equal to it. -/
theorem recordedBetween_inserted_front (line : String) (lines : List String) :
    recordedBetween lines (line :: lines)
      = if line ≠ "" ∨ ∃ l ∈ lines, l ≠ "" then [⟨.added, line⟩] else [] := by
  induction lines with
  | nil =>
      by_cases hblank : line = ""
      · have hnone : ¬ (line ≠ "" ∨ ∃ l ∈ ([] : List String), l ≠ "") := by simp [hblank]
        have hactual : ¬ Meaningful [line] := by simp [Meaningful, lookahead, hblank]
        rw [if_neg hnone, recordedBetween_of_not_meaningful not_meaningful_nil hactual]
      · have hstep : Step.between [] [line] = ⟨.add line, [], []⟩ :=
          Step.between_add rfl (Ne.symm hblank)
        rw [if_pos (Or.inl hblank), recordedBetween_eq, hstep, recordedBetween_self]
        rfl
  | cons first lines ih =>
      by_cases hsame : first = line
      · -- the run goes on
        subst hsame
        rw [recordedBetween_cons_cons, ih]
        simp only [List.exists_mem_cons_iff, ← or_assoc, or_self]
      · have hstep : Step.between (first :: lines) (line :: first :: lines)
            = ⟨.add line, first :: lines, first :: lines⟩ := Step.between_add rfl hsame
        have htold : line ≠ "" ∨ ∃ l ∈ first :: lines, l ≠ "" := by
          by_cases hblank : line = ""
          · exact Or.inr ⟨first, List.mem_cons_self, hblank ▸ hsame⟩
          · exact Or.inl hblank
        rw [if_pos htold, recordedBetween_eq, hstep, recordedBetween_self]
        rfl

/-- At any place, the lines in front of the new one are passed over first. -/
theorem recordedBetween_insertIdx (line : String) {lines : List String} {place : Nat}
    (h : place ≤ lines.length) :
    recordedBetween lines (lines.insertIdx place line)
      = if line ≠ "" ∨ ∃ l ∈ lines.drop place, l ≠ "" then [⟨.added, line⟩] else [] := by
  induction place generalizing lines with
  | zero =>
      rw [List.insertIdx_zero, List.drop_zero]
      exact recordedBetween_inserted_front line lines
  | succ place ih =>
      cases lines with
      | nil => exact absurd h (Nat.not_succ_le_zero place)
      | cons first lines =>
          rw [List.insertIdx_succ_cons, recordedBetween_cons_cons, List.drop_succ_cons]
          exact ih (Nat.le_of_succ_le_succ h)

namespace Alignment

/-- **One line more than expected.**  Compare readers over any two sources of which the actual one
delivers the lines of the expected one and a further line, at any place from the front to the end.
Exactly that line is reported as added, if it or any expected line from its place on is not blank;
otherwise the two sides match, and nothing is reported. -/
theorem diagnostics_run_inserted {expected actual : Source} {lines : List String} {place : Nat}
    (line : String) (hplace : place ≤ lines.length) (hexpected : expected.lines = lines)
    (hactual : actual.lines = lines.insertIdx place line) :
    let alignment := (run (.ofSource expected) (.ofSource actual)).value
    if line ≠ "" ∨ ∃ l ∈ lines.drop place, l ≠ "" then
      alignment.diagnostics = [⟨.added, line⟩] ∧ alignment.isMatch = false
    else alignment.diagnostics = [] ∧ alignment.isMatch = true := by
  intro alignment
  have hrecorded : alignment.diagnostics
      = if line ≠ "" ∨ ∃ l ∈ lines.drop place, l ≠ "" then [⟨.added, line⟩] else [] := by
    rw [diagnostics_run_eq (Reader.regular_ofSource expected) (Reader.regular_ofSource actual),
      Reader.remaining_ofSource, Reader.remaining_ofSource, hexpected, hactual]
    exact recordedBetween_insertIdx line hplace
  have hmatch := isMatch_iff_diagnostics alignment
  split
  · rename_i htold
    rw [if_pos htold] at hrecorded
    refine ⟨hrecorded, Bool.eq_false_iff.mpr ?_⟩
    rw [Ne, hmatch, hrecorded]
    exact List.cons_ne_nil _ _
  · rename_i hblank
    rw [if_neg hblank] at hrecorded
    exact ⟨hrecorded, hmatch.mpr hrecorded⟩

/-- A blank line among blank lines is reported for the sake of the one line behind them, though it
is noticed only there; behind that line it is passed over. -/
theorem diagnostics_run_inserted_blank :
    let lines := ["a", "", "", "a", ""]
    let feed := [Delivery.bytes [0x61, 0x0A, 0x0A], .interrupted, .bytes [0x0A, 0x61, 0x0D, 0x0A]]
    1 ≤ lines.length ∧ 5 ≤ lines.length ∧
      (Source.ofDeliveries feed).lines = lines ∧
      (Source.ofText "a\n\n\n\na\n").lines = lines.insertIdx 1 "" ∧
      (Source.ofText "a\n\n\na\n\n").lines = lines.insertIdx 5 "" ∧
      (run (.ofDeliveries feed) (.ofText "a\n\n\n\na\n")).value.diagnostics = [⟨.added, ""⟩] ∧
      (run (.ofDeliveries feed) (.ofText "a\n\n\na\n\n")).value.isMatch = true := by
  intro lines feed
  have hlines : (Source.ofDeliveries feed).lines = lines := by decide +kernel
  have hfirst : (Source.ofText "a\n\n\n\na\n").lines = lines.insertIdx 1 "" := by decide +kernel
  have hlast : (Source.ofText "a\n\n\na\n\n").lines = lines.insertIdx 5 "" := by decide +kernel
  have hadded := diagnostics_run_inserted "" (by decide : 1 ≤ lines.length) hlines hfirst
  have hpassed := diagnostics_run_inserted "" (by decide : 5 ≤ lines.length) hlines hlast
  rw [if_pos (by decide)] at hadded
  rw [if_neg (by decide)] at hpassed
  exact ⟨by decide, by decide, hlines, hfirst, hlast, hadded.1, hpassed.2⟩

end Alignment

end Golden
