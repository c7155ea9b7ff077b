import Golden.Proofs.Line.Joined
import Golden.Proofs.Line.Steps
import Golden.Proofs.Line.Verdict

/-!
# Golden.Proofs.Line.Missing — one line fewer than there should be

The actual lines are the expected ones without one of them.  As with a line too many, a comparison
passes over what stands in front and then over the run of lines that equal the missing one: which
line of a run is missing makes no difference (`RunOf.eraseIdx_eq`), and it is noticed behind the
last.

There the missing line is told by what the actual side shows next, which is the expected line after
it.  Two things come before that.  Where the missing line is blank and nothing is left behind it,
both sides show the empty line and nothing is noticed at all.  And a line is taken to be extra when
the expected one stands right behind it, which is tried first.  **So a missing line is misread
exactly when it stands again two places further on** (`Alignment.diagnostics_run_missing`); the
line in between is then reported as added.  Past the end stands the empty line, so a blank line that
is missing in front of the last line is misread as well.
-/

namespace Golden

/-- A run of equal lines: `line` at all positions from `first` to `last`, and another line or none
behind them. -/
structure RunOf (lines : List String) (line : String) (first last : Nat) : Prop where
  first_le : first ≤ last
  same : ∀ position, first ≤ position → position ≤ last → lines[position]? = some line
  ends : lines[last + 1]? ≠ some line

namespace RunOf

variable {lines : List String} {line : String} {first last : Nat}

/-- Which line of a run is taken out makes no difference. -/
theorem eraseIdx_eq (h : RunOf lines line first last) :
    lines.eraseIdx first = lines.eraseIdx last := by
  have hle := h.first_le
  apply List.ext_getElem?
  intro position
  rw [List.getElem?_eraseIdx, List.getElem?_eraseIdx]
  by_cases hfirst : position < first
  · rw [if_pos hfirst, if_pos (by omega)]
  · rw [if_neg hfirst]
    by_cases hlast : position < last
    · rw [if_pos hlast, h.same position (by omega) (by omega), h.same (position + 1) (by omega) hlast]
    · rw [if_neg hlast]

theorem getElem?_last (h : RunOf lines line first last) : lines[last]? = some line :=
  h.same last h.first_le (Nat.le_refl last)

/-- Behind the last line of a run another one is shown, unless the run is of blank lines and ends
all of them. -/
theorem ne_behind (h : RunOf lines line first last) (hleft : ¬ (line = "" ∧ last + 1 = lines.length)) :
    line ≠ (lines.drop (last + 1)).headD "" := by
  have hlast : last < lines.length := (List.getElem?_eq_some_iff.mp h.getElem?_last).1
  rw [headD_drop, List.getD_eq_getElem?_getD]
  cases hbehind : lines[last + 1]? with
  | some next => exact fun hsame => h.ends (hbehind.trans (congrArg some hsame.symm))
  | none =>
      have hend := List.getElem?_eq_none_iff.mp hbehind
      exact fun hblank => hleft ⟨hblank, by omega⟩

/-- All lines up to the run's last are passed over when one of the run is missing. -/
theorem recordedBetween_eraseIdx (h : RunOf lines line first last) :
    recordedBetween lines (lines.eraseIdx first)
      = recordedBetween (line :: lines.drop (last + 1)) (lines.drop (last + 1)) := by
  have happend := recordedBetween_append (lines.take last) (line :: lines.drop (last + 1))
    (lines.drop (last + 1))
  rw [take_append_cons_drop h.getElem?_last] at happend
  rw [h.eraseIdx_eq, List.eraseIdx_eq_take_drop_succ, happend]

end RunOf

variable {line : String} {rest : List String}

/-- **Behind a run** a missing line is told from the line that is shown in its place. -/
theorem recordedBetween_missing (hnext : line ≠ rest.headD "") (hbehind : rest.getD 1 "" ≠ line) :
    recordedBetween (line :: rest) rest = [⟨.removed, line⟩] := by
  have hstep : Step.between (line :: rest) rest = ⟨.remove line, rest, rest⟩ :=
    Step.between_remove rfl (meaningful_cons_of_ne hnext) hnext (Ne.symm hbehind)
  rw [recordedBetween_eq, hstep, recordedBetween_self]
  rfl

/-- If it stands right behind that line, the line is taken to be extra. -/
theorem recordedBetween_misread (hnext : line ≠ rest.headD "") (hbehind : rest.getD 1 "" = line) :
    ∃ others, recordedBetween (line :: rest) rest = ⟨.added, rest.headD ""⟩ :: others := by
  cases rest with
  | nil =>
      -- past the end of the lines there are no two different ones to show
      exact absurd hbehind.symm hnext
  | cons next rest =>
      rw [Step.getD_one_cons] at hbehind
      have hstep : Step.between (line :: next :: rest) (next :: rest)
          = ⟨.add next, line :: next :: rest, rest⟩ := Step.between_add hbehind.symm hnext
      rw [recordedBetween_eq, hstep]
      exact ⟨_, rfl⟩

namespace Alignment

/-- **One line fewer than expected.**  Compare readers over any two sources of which the actual one
delivers the lines of the expected one without a line of a run that ends at position `last`.  If the
line is blank and the run ends the expected lines, the two sides match and nothing is reported.
Otherwise they do not match, and exactly the missing line is reported as removed if and only if the
line two places behind the run's last (the empty line past the end) is another one; if it is the
same, the line in between is reported as added first. -/
theorem diagnostics_run_missing {expected actual : Source} {lines : List String} {line : String}
    {place last : Nat} (hrun : RunOf lines line place last) (hexpected : expected.lines = lines)
    (hactual : actual.lines = lines.eraseIdx place) :
    let alignment := (run (.ofSource expected) (.ofSource actual)).value
    let behind := lines.getD (last + 2) ""
    if line = "" ∧ last + 1 = lines.length then
      alignment.diagnostics = [] ∧ alignment.isMatch = true
    else
      (alignment.diagnostics = [⟨.removed, line⟩] ↔ behind ≠ line) ∧
        (behind = line →
          alignment.diagnostics.head? = some ⟨.added, lines.getD (last + 1) ""⟩) ∧
        alignment.isMatch = false := by
  intro alignment behind
  have hrecorded : alignment.diagnostics
      = recordedBetween (line :: lines.drop (last + 1)) (lines.drop (last + 1)) := by
    rw [diagnostics_run_ofSource, hexpected, hactual, hrun.recordedBetween_eraseIdx]
  have hsecond : (lines.drop (last + 1)).getD 1 "" = behind := by
    rw [List.getD_eq_getElem?_getD, List.getElem?_drop, ← List.getD_eq_getElem?_getD]
  split
  · rename_i hpassed
    obtain ⟨rfl, hend⟩ := hpassed
    have hnone : alignment.diagnostics = [] := by
      rw [hrecorded, hend, List.drop_length]
      decide +kernel
    exact ⟨hnone, (isMatch_iff_diagnostics alignment).mpr hnone⟩
  · rename_i hleft
    have hnext := hrun.ne_behind hleft
    by_cases hagain : behind = line
    · obtain ⟨others, hothers⟩ := recordedBetween_misread hnext (hsecond.trans hagain)
      rw [← hrecorded, headD_drop] at hothers
      obtain ⟨hmisread, hfirst, hmatch⟩ := begins_of_cons hothers [⟨.removed, line⟩] nofun
      exact ⟨iff_of_false hmisread (not_not_intro hagain), fun _ => hfirst, hmatch⟩
    · have htold := hrecorded.trans (recordedBetween_missing hnext (hsecond ▸ hagain))
      exact ⟨iff_of_true htold hagain, fun hsame => absurd hsame hagain,
        isMatch_eq_false_of_cons htold⟩

/-- Of two equal lines the first is missing, and is told by the lines behind them; the second line
of the same text is misread, since it stands again two places further on. -/
theorem diagnostics_run_missing_twice :
    let lines := ["a", "a", "b", "", "b"]
    let feed := [Delivery.bytes [0x61, 0x0A, 0x61], .interrupted,
      .bytes [0x0D, 0x0A, 0x62, 0x0A, 0x0A, 0x62]]
    RunOf lines "a" 0 1 ∧ RunOf lines "b" 2 2 ∧ (Source.ofDeliveries feed).lines = lines ∧
      (Source.ofText "a\nb\n\nb").lines = lines.eraseIdx 0 ∧
      (Source.ofText "a\na\n\nb").lines = lines.eraseIdx 2 ∧
      (run (.ofDeliveries feed) (.ofText "a\nb\n\nb")).value.diagnostics = [⟨.removed, "a"⟩] ∧
      (run (.ofDeliveries feed) (.ofText "a\na\n\nb")).value.diagnostics.head?
        = some ⟨.added, ""⟩ := by
  intro lines feed
  have hfirst : RunOf lines "a" 0 1 := ⟨by decide, by decide, by decide⟩
  have hsecond : RunOf lines "b" 2 2 := ⟨by decide, by decide, by decide⟩
  have hlines : (Source.ofDeliveries feed).lines = lines := by decide +kernel
  have htold : (Source.ofText "a\nb\n\nb").lines = lines.eraseIdx 0 := by decide +kernel
  have hmisread : (Source.ofText "a\na\n\nb").lines = lines.eraseIdx 2 := by decide +kernel
  have hremoved := diagnostics_run_missing hfirst hlines htold
  have hadded := diagnostics_run_missing hsecond hlines hmisread
  rw [if_neg (by decide)] at hremoved hadded
  exact ⟨hfirst, hsecond, hlines, htold, hmisread, hremoved.1.mpr (by decide),
    hadded.2.1 (by decide)⟩

end Alignment

end Golden
