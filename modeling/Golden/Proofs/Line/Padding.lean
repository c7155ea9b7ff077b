import Mathlib.Data.List.Chain
import Mathlib.Data.List.Forall2
import Golden.Proofs.Line.Interchange
import Golden.Proofs.Line.Steps
import Golden.Proofs.Line.Verdict

/-!
# Golden.Proofs.Line.Padding — blank lines at the end of the output

How many blank lines stand at the end of the output should not matter.  It does not matter to what
is recorded up to the last line of the output that is not blank: the steps to there are the same,
whatever follows (`recordedBetween_append_blanks`).  From there on the output has only blank lines
to show, and the one thing left to tell is which expected lines are missing
(`recordedBetween_blanks`).  **No blank line is recorded as extra.**

What is left open is how a missing line is told.  As long as the blank lines fit in the window they
count as nothing, and the line is removed.  Where more of them are left than fit, the actual side is
`Meaningful` as far as can be seen, and a blank line may be recorded as standing in place of the
missing one (`Alignment.diagnostics_run_five_newlines`).  So blank lines can be added to the output
without any effect as long as no more than `lookahead` stand at its end, or as long as the missing
lines are `Scattered` (`Alignment.diagnostics_run_padded`).
-/

namespace Golden

/-! ## Blank lines at the end of a text -/

/-- What ends a line of a text. -/
inductive LineEnding
  | newline
  | returnAndNewline
  deriving DecidableEq, Repr

def LineEnding.characters : LineEnding → List Char
  | .newline => ['\n']
  | .returnAndNewline => ['\r', '\n']

/-- Blank lines, each ended in its own way. -/
def blankLines (endings : List LineEnding) : String :=
  String.ofList (endings.flatMap LineEnding.characters)

namespace Source

/-- Ending the last line of a text begins one more, which is empty. -/
theorem lines_text_concat (text : List Char) (ending : LineEnding) :
    (Source.text (some (text ++ ending.characters))).lines
      = (Source.text (some text)).lines ++ [""] := by
  by_cases hnew : '\n' ∈ text
  · -- the lines up to the first newline are not touched
    obtain ⟨front, rest, rfl, hfront⟩ := List.eq_append_cons_of_mem hnew
    rw [List.append_assoc, List.cons_append, lines_text_append _ hfront, lines_text_append _ hfront,
      lines_text_concat rest ending]
    rfl
  · have hempty : (Source.text (some [])).lines = [""] := lines_text_of_notMem List.not_mem_nil
    cases ending with
    | newline =>
        rw [LineEnding.characters, lines_text_append [] hnew, lines_text_of_notMem hnew, hempty]
        rfl
    | returnAndNewline =>
        have hreturn : '\n' ∉ text ++ ['\r'] := by simp [hnew]
        have htrim : trimTerminators (text ++ ['\r']) = trimTerminators text := by
          simp [trimTerminators]
        rw [LineEnding.characters, ← List.singleton_append, ← List.append_assoc,
          lines_text_append [] hreturn, lines_text_of_notMem hnew, htrim, hempty]
        rfl
termination_by text.length

/-- **Blank lines behind a text** are as many blank lines behind its lines. -/
theorem lines_append_blankLines (text : String) (endings : List LineEnding) :
    (ofText (text ++ blankLines endings)).lines
      = (ofText text).lines ++ List.replicate endings.length "" := by
  rw [ofText, ofText, blankLines, String.toList_append, String.toList_ofList]
  induction endings generalizing text with
  | nil => simp
  | cons ending endings ih =>
      have hrest := ih (String.ofList (text.toList ++ ending.characters))
      rw [String.toList_ofList, lines_text_concat, List.append_assoc, List.append_assoc] at hrest
      rw [List.flatMap_cons, hrest, List.length_cons, List.replicate_succ]
      rfl

end Source

/-- How many blank lines stand at the end. -/
def trailingBlanks (lines : List String) : Nat := (lines.rtakeWhile (· == "")).length

theorem withoutTrailingBlanks_append_replicate (lines : List String) :
    withoutTrailingBlanks lines ++ List.replicate (trailingBlanks lines) "" = lines := by
  have hblank : lines.rtakeWhile (· == "") = List.replicate (trailingBlanks lines) "" := by
    rw [List.eq_replicate_iff]
    exact ⟨rfl, fun line hline => by simpa using List.mem_rtakeWhile_imp hline⟩
  rw [← hblank]
  exact List.rdropWhile_append_rtakeWhile

theorem getLast?_withoutTrailingBlanks (lines : List String) :
    (withoutTrailingBlanks lines).getLast? ≠ some "" := by
  intro hlast
  have hne : withoutTrailingBlanks lines ≠ [] := by
    intro hnil
    rw [hnil] at hlast
    cases hlast
  rw [List.getLast?_eq_some_getLast hne, Option.some.injEq] at hlast
  exact List.rdropWhile_last_not (· == "") lines hne (beq_iff_eq.mpr hlast)

theorem withoutTrailingBlanks_append_blanks (lines : List String) (blanks : Nat) :
    withoutTrailingBlanks (lines ++ List.replicate blanks "") = withoutTrailingBlanks lines := by
  induction blanks with
  | zero => rw [List.replicate_zero, List.append_nil]
  | succ blanks ih =>
      rw [List.replicate_succ', ← List.append_assoc, withoutTrailingBlanks_concat, if_pos rfl, ih]

theorem trailingBlanks_append_blanks (lines : List String) (blanks : Nat) :
    trailingBlanks (lines ++ List.replicate blanks "") = trailingBlanks lines + blanks := by
  have hsplit := congrArg List.length (withoutTrailingBlanks_append_replicate lines)
  have hpadded := congrArg List.length
    (withoutTrailingBlanks_append_replicate (lines ++ List.replicate blanks ""))
  rw [withoutTrailingBlanks_append_blanks] at hpadded
  simp only [List.length_append, List.length_replicate] at hsplit hpadded
  omega

/-! ## Up to the last line that is not blank -/

namespace Edit

variable {edit : Edit} {expected actual expected' actual' : List String}

/-- What a step takes from an actual side that has something left. -/
theorem Takes.actualSide_append (h : Takes edit expected actual expected' actual')
    (hne : actual ≠ []) : edit.actualSide ++ actual' = actual := by
  cases h with
  | keep | keepActual | add | remove | substitute => rfl
  | keepExpected => exact absurd rfl hne

end Edit

/-- Lines that end in one that is not blank are meaningful, whatever stands behind them. -/
theorem meaningful_append {core : List String} (hne : core ≠ []) (hlast : core.getLast? ≠ some "")
    (blanks : List String) : Meaningful (core ++ blanks) := by
  refine Or.inr ⟨core.getLast hne, List.mem_append_left _ (List.getLast_mem hne), ?_⟩
  intro hblank
  exact hlast (by rw [List.getLast?_eq_some_getLast hne, hblank])

theorem headD_replicate_blank (blanks : Nat) : (List.replicate blanks "").headD "" = "" := by
  cases blanks <;> rfl

/-- **One step** before the last line that is not blank does not see the blank lines behind it. -/
theorem Step.between_append_blanks (expected : List String) {core : List String} (hne : core ≠ [])
    (hlast : core.getLast? ≠ some "") (blanks : Nat) :
    between expected (core ++ List.replicate blanks "")
      = { between expected core with
          actual := (between expected core).actual ++ List.replicate blanks "" } := by
  have hpadded : Meaningful (core ++ List.replicate blanks "") := meaningful_append hne hlast _
  have hcore : Meaningful core := by simpa using meaningful_append hne hlast []
  have hhead : (core ++ List.replicate blanks "").headD "" = core.headD "" := by
    cases core with
    | nil => exact absurd rfl hne
    | cons line rest => rfl
  -- behind the last line stands a blank one or none, which looks the same
  have hsecond : (core ++ List.replicate blanks "").getD 1 "" = core.getD 1 "" := by
    rcases core with _ | ⟨line, _ | ⟨next, rest⟩⟩
    · exact absurd rfl hne
    · rw [List.singleton_append, getD_one_cons, headD_replicate_blank]
      rfl
    · rfl
  simp only [between, hhead, hsecond, List.tail_append_of_ne_nil hne, hpadded, hcore,
    not_true_eq_false, or_false]
  split_ifs <;> rfl

/-- **All steps** up to the last line that is not blank: they take the lines to there, they do not
depend on the blank lines behind, and they leave an end of the expected side. -/
theorem recordedBetween_append_blanks (expected core : List String)
    (hlast : core.getLast? ≠ some "") :
    ∃ (front : List Edit) (rest : List String),
      front.flatMap Edit.actualSide = core ∧ rest <:+ expected ∧
      ∀ blanks, recordedBetween expected (core ++ List.replicate blanks "")
        = front.flatMap Edit.diagnostics ++ recordedBetween rest (List.replicate blanks "") := by
  fun_induction stepsBetween expected core with
  | case1 expected core h step _ ih =>
      by_cases hne : core = []
      · exact ⟨[], expected, hne.symm, List.suffix_rfl, fun blanks => by simp [hne]⟩
      · have htakes : step.edit.Takes expected core step.expected step.actual :=
          Step.between_takes (Or.inr hne)
        have hside := htakes.actualSide_append hne
        have hlast' : step.actual.getLast? ≠ some "" := by
          intro hblank
          rw [← hside, List.getLast?_append, hblank] at hlast
          exact hlast rfl
        obtain ⟨front, rest, hfront, hrest, hrecorded⟩ := ih hlast'
        refine ⟨step.edit :: front, rest, ?_, hrest.trans htakes.suffix.1, ?_⟩
        · rw [List.flatMap_cons, hfront, hside]
        · intro blanks
          rw [recordedBetween_eq, Step.between_append_blanks expected hne hlast, hrecorded,
            List.flatMap_cons, List.append_assoc]
  | case2 expected core h =>
      -- without anything meaningful there is no line that is not blank
      have hcore : core = [] := by
        by_contra hne
        have hmeaningful := meaningful_append hne hlast []
        rw [List.append_nil] at hmeaningful
        exact h (Or.inr hmeaningful)
      exact ⟨[], expected, hcore.symm, List.suffix_rfl, fun blanks => by simp [hcore]⟩

/-! ## Behind the last line that is not blank -/

/-- The steps that tell which expected lines are missing, with so many blank lines left of the
actual side.  A blank line that is expected agrees with one of them or with none. -/
def stepsBeforeBlanks : List String → Nat → List Edit
  | [], _ => []
  | line :: rest, blanks =>
    if line = "" then stepsBeforeBlanks rest (blanks - 1)
    else if rest.headD "" = "" ∨ blanks ≤ lookahead then
      .remove line :: stepsBeforeBlanks rest blanks
    else .substitute "" line :: stepsBeforeBlanks rest (blanks - 1)

theorem meaningful_replicate_blank {blanks : Nat} :
    Meaningful (List.replicate blanks "") ↔ lookahead < blanks := by
  simp [Meaningful, List.mem_replicate]

/-- **One step** about a line that is not blank: it is missing, and a blank line stands in its place
if more of these are left than fit in the window and the line behind it is not blank either. -/
theorem Step.between_cons_blanks {line : String} (hline : line ≠ "") (rest : List String)
    (blanks : Nat) :
    between (line :: rest) (List.replicate blanks "")
      = if rest.headD "" = "" ∨ blanks ≤ lookahead then
          ⟨.remove line, rest, List.replicate blanks ""⟩
        else ⟨.substitute "" line, rest, List.replicate (blanks - 1) ""⟩ := by
  have hsecond : (List.replicate blanks "").getD 1 "" = "" := by
    rcases blanks with _ | _ | blanks <;> rfl
  have hfew : ¬ Meaningful (List.replicate blanks "") ↔ blanks ≤ lookahead := by
    rw [meaningful_replicate_blank, Nat.not_lt]
  have hadd : ¬ (line = "" ∨ ¬ Meaningful (line :: rest)) :=
    not_passed (meaningful_cons rest hline) hline
  simp only [between, List.headD_cons, headD_replicate_blank, hsecond, getD_one_cons, hfew,
    List.tail_cons, List.tail_replicate]
  rw [if_neg hline, if_neg hadd]

/-- **Only missing lines are recorded** once the actual side has nothing but blank lines left. -/
theorem recordedBetween_blanks (expected : List String) (blanks : Nat) :
    recordedBetween expected (List.replicate blanks "")
      = (stepsBeforeBlanks expected blanks).flatMap Edit.diagnostics := by
  induction expected generalizing blanks with
  | nil =>
      -- the remaining turns agree about a blank line each
      induction blanks with
      | zero => exact recordedBetween_of_not_meaningful not_meaningful_nil not_meaningful_nil
      | succ blanks ih =>
          have hshown : ([] : List String).headD "" = (List.replicate (blanks + 1) "").headD "" :=
            rfl
          rw [recordedBetween_eq, Step.between_of_eq hshown]
          exact ih
  | cons line rest ih =>
      rw [recordedBetween_eq, stepsBeforeBlanks]
      by_cases hline : line = ""
      · have hshown : (line :: rest).headD "" = (List.replicate blanks "").headD "" := by
          rw [headD_replicate_blank, List.headD_cons, hline]
        rw [if_pos hline, Step.between_of_eq hshown, List.tail_replicate, List.tail_cons, ih]
        rfl
      · rw [if_neg hline, Step.between_cons_blanks hline]
        split_ifs
        · rw [ih, List.flatMap_cons]
        · rw [ih, List.flatMap_cons]

/-- The step says that an expected line is missing, with a blank line in its place or with none. -/
inductive Edit.Misses : Edit → String → Prop
  | remove (line : String) : Misses (.remove line) line
  | substitute (line : String) : Misses (.substitute "" line) line

/-- What is missing is told. -/
theorem Edit.eq_nil_of_misses {steps : List Edit} {missing : List String}
    (h : List.Forall₂ Misses steps missing) (hsilent : steps.flatMap diagnostics = []) :
    missing = [] := by
  cases h with
  | nil => rfl
  | cons hmisses _ =>
      rw [List.flatMap_cons, List.append_eq_nil_iff] at hsilent
      cases hmisses with
      | remove | substitute => exact absurd hsilent.1 (List.cons_ne_nil _ _)

/-- Each line that is not blank is missing once, in order. -/
theorem stepsBeforeBlanks_misses (expected : List String) (blanks : Nat) :
    List.Forall₂ Edit.Misses (stepsBeforeBlanks expected blanks) (expected.filter (· != "")) := by
  induction expected generalizing blanks with
  | nil => exact .nil
  | cons line rest ih =>
      rw [stepsBeforeBlanks]
      by_cases hline : line = ""
      · rw [if_pos hline, List.filter_cons_of_neg (by simp [hline])]
        exact ih (blanks - 1)
      · rw [if_neg hline, List.filter_cons_of_pos (by simp [hline])]
        split_ifs
        · exact .cons (.remove line) (ih blanks)
        · exact .cons (.substitute line) (ih (blanks - 1))

/-- No two lines that are not blank stand next to each other. -/
def Scattered (lines : List String) : Prop :=
  lines.IsChain fun line next => line = "" ∨ next = ""

theorem scattered_of_blank {lines : List String} (h : ∀ line ∈ lines, line = "") :
    Scattered lines := by
  induction lines with
  | nil => exact .nil
  | cons line lines ih =>
      have hline := h line List.mem_cons_self
      exact List.isChain_cons.mpr
        ⟨fun _ _ => Or.inl hline, ih fun l hl => h l (List.mem_cons_of_mem _ hl)⟩

/-- Blank lines that fit in the window stand in no line's place; and none stands in place of a line
that has only a blank one behind it. -/
theorem stepsBeforeBlanks_eq_map (expected : List String) {blanks : Nat}
    (h : blanks ≤ lookahead ∨ Scattered expected) :
    stepsBeforeBlanks expected blanks = (expected.filter (· != "")).map .remove := by
  induction expected generalizing blanks with
  | nil => rfl
  | cons line rest ih =>
      rw [stepsBeforeBlanks]
      by_cases hline : line = ""
      · rw [if_pos hline, List.filter_cons_of_neg (by simp [hline])]
        exact ih (h.imp (Nat.le_trans (Nat.sub_le blanks 1)) List.IsChain.tail)
      · have hremove : rest.headD "" = "" ∨ blanks ≤ lookahead := by
          rcases h with hfew | hscattered
          · exact Or.inr hfew
          · cases rest with
            | nil => exact Or.inl rfl
            | cons next rest =>
                exact Or.inl ((List.isChain_cons_cons.mp hscattered).1.resolve_left hline)
        rw [if_neg hline, if_pos hremove, List.filter_cons_of_pos (by simp [hline]),
          ih (h.imp_right List.IsChain.tail)]
        rfl

/-! ## Any number of blank lines -/

/-- What is recorded against some lines, told by the number of blank ones at their end. -/
theorem recordedBetween_trailingBlanks (expected actual : List String) :
    ∃ (front : List Edit) (rest : List String),
      front.flatMap Edit.actualSide = withoutTrailingBlanks actual ∧ rest <:+ expected ∧
      ∀ blanks, recordedBetween expected (actual ++ List.replicate blanks "")
        = (front ++ stepsBeforeBlanks rest (trailingBlanks actual + blanks)).flatMap
            Edit.diagnostics := by
  obtain ⟨front, rest, hfront, hrest, hrecorded⟩ :=
    recordedBetween_append_blanks expected _ (getLast?_withoutTrailingBlanks actual)
  refine ⟨front, rest, hfront, hrest, ?_⟩
  intro blanks
  have hsplit : actual ++ List.replicate blanks ""
      = withoutTrailingBlanks actual ++ List.replicate (trailingBlanks actual + blanks) "" := by
    rw [List.replicate_add, ← List.append_assoc, withoutTrailingBlanks_append_replicate]
  rw [hsplit, hrecorded, recordedBetween_blanks, List.flatMap_append]

namespace Alignment

/-- **Blank lines at the end of the output.**  For any expected lines and any actual text, the steps
up to the last line of the text that is not blank do not depend on the blank lines added behind it.
Of the expected lines that are then left all but the blank ones are missing, and each of these is
removed or has a blank line in its place, so that no blank line at the end is ever extra.  They are
all removed, and everything that is recorded stays the same, as long as no more blank lines stand at
the end than fit in the window, or no two adjacent lines are missing, or the texts match. -/
theorem diagnostics_run_padded (expected : Source) (actual : String) :
    ∃ (front : List Edit) (rest : List String),
      front.flatMap Edit.actualSide = withoutTrailingBlanks (Source.ofText actual).lines ∧
      rest <:+ expected.lines ∧
      ∀ endings : List LineEnding,
        let missing := rest.filter (· != "")
        let compare := fun text => (run (.ofSource expected) (.ofText text)).value
        let padded := actual ++ blankLines endings
        let blanks := trailingBlanks (Source.ofText padded).lines
        ∃ steps, List.Forall₂ Edit.Misses steps missing ∧
          (compare padded).diagnostics = (front ++ steps).flatMap Edit.diagnostics ∧
          (blanks ≤ lookahead ∨ Scattered rest ∨ (compare actual).isMatch = true →
            steps = missing.map .remove ∧
            (compare padded).diagnostics = (compare actual).diagnostics) := by
  obtain ⟨front, rest, hfront, hrest, hrecorded⟩ :=
    recordedBetween_trailingBlanks expected.lines (Source.ofText actual).lines
  refine ⟨front, rest, hfront, hrest, fun endings => ?_⟩
  have hrun : ∀ text, (run (.ofSource expected) (.ofText text)).value.diagnostics
      = recordedBetween expected.lines (Source.ofText text).lines := fun text =>
    diagnostics_run_eq (Reader.regular_ofSource expected) (Reader.regular_ofSource (.ofText text))
  have hpadded := hrecorded endings.length
  have hbare := hrecorded 0
  rw [List.replicate_zero, List.append_nil, Nat.add_zero] at hbare
  dsimp only
  rw [isMatch_iff_diagnostics, hrun, hrun, Source.lines_append_blankLines,
    trailingBlanks_append_blanks, hpadded, hbare]
  refine ⟨_, stepsBeforeBlanks_misses rest _, rfl, fun h => ?_⟩
  -- where the texts match, nothing is missing
  have hfew : trailingBlanks (Source.ofText actual).lines + endings.length ≤ lookahead
      ∨ Scattered rest := by
    rcases h with hfew | hscattered | hmatch
    · exact Or.inl hfew
    · exact Or.inr hscattered
    · rw [List.flatMap_append, List.append_eq_nil_iff] at hmatch
      have hnone := Edit.eq_nil_of_misses (stepsBeforeBlanks_misses rest _) hmatch.2
      exact Or.inr (scattered_of_blank (by simpa [List.filter_eq_nil_iff] using hnone))
  have hfew' := hfew.imp_left (Nat.le_trans (Nat.le_add_right _ endings.length))
  rw [stepsBeforeBlanks_eq_map rest hfew, stepsBeforeBlanks_eq_map rest hfew']
  exact ⟨rfl, rfl⟩

/-- Four newlines behind a line are as many blank lines, which leave what is recorded as it was. -/
theorem diagnostics_run_four_newlines :
    let compare := fun text => (run (.ofText "a\nb") (.ofText text)).value
    let padded := "x" ++ blankLines (List.replicate 4 .newline)
    trailingBlanks (Source.ofText padded).lines ≤ lookahead ∧
      (compare padded).diagnostics = (compare "x").diagnostics ∧
      (compare "x").diagnostics = [⟨.observed, "x"⟩, ⟨.expected, "a"⟩, ⟨.removed, "b"⟩] := by
  intro compare padded
  obtain ⟨front, rest, -, -, hpadded⟩ := diagnostics_run_padded (.ofText "a\nb") "x"
  have hblanks : trailingBlanks (Source.ofText padded).lines ≤ lookahead := by decide +kernel
  obtain ⟨steps, -, -, hsame⟩ := hpadded (List.replicate 4 .newline)
  exact ⟨hblanks, (hsame (Or.inl hblanks)).2, by decide +kernel⟩

/-- **A blank line at the end can be recorded in place of a missing one.**  Five newlines make six
blank lines, one more than fit in the window; without them both lines are removed. -/
theorem diagnostics_run_five_newlines :
    let compare := fun text => (run (.ofText "a\nb") (.ofText text)).value
    let padded := "" ++ blankLines (List.replicate 5 .newline)
    (compare padded).diagnostics = [⟨.observed, ""⟩, ⟨.expected, "a"⟩, ⟨.removed, "b"⟩] ∧
      (compare "").diagnostics = [⟨.removed, "a"⟩, ⟨.removed, "b"⟩] ∧
      (compare padded).diagnostics ≠ (compare "").diagnostics := by
  decide +kernel

end Alignment

end Golden
