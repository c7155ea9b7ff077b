import Golden.Proofs.Line.Joined
import Golden.Proofs.Line.Steps
import Golden.Proofs.Line.Verdict

/-!
# Golden.Proofs.Line.Changed — one line in place of another

The actual lines are the expected ones with another line in one place.  Behind that place both sides
are the same, so what is made of the two lines depends on the one that stands right behind them on
either side, which is the empty line past the end.

* If it is the expected line, that line is shown behind the actual one, which is taken to be extra.
* If it is the actual line, that line is shown behind the expected one, which is taken to be missing.
* If it is neither, the one line is told to stand in place of the other, and from there both sides
  agree.

**So a change is told as a change exactly when neither line stands again right behind it, and it is
always told** (`Alignment.diagnostics_run_changed`).  What is left of either side always means
something in the last case, blank lines or not: a line that differs from the one behind it is not
blank, or that one is not (`meaningful_cons_of_ne`).
-/

namespace Golden

variable {line other : String} {rest : List String}

/-- In front of the line that was expected, another one is taken to be extra. -/
theorem recordedBetween_changed_repeated (hne : line ≠ other) (hbehind : rest.headD "" = line) :
    ∃ others, recordedBetween (line :: rest) (other :: rest) = ⟨.added, other⟩ :: others := by
  have hstep : Step.between (line :: rest) (other :: rest) = ⟨.add other, line :: rest, rest⟩ :=
    Step.between_add hbehind.symm hne
  rw [recordedBetween_eq, hstep]
  exact ⟨_, rfl⟩

/-- In front of the line that is there, the expected one is taken to be missing. -/
theorem recordedBetween_changed_anticipated (hne : line ≠ other)
    (hbehind : rest.headD "" = other) :
    ∃ others, recordedBetween (line :: rest) (other :: rest) = ⟨.removed, line⟩ :: others := by
  have hnext : line ≠ rest.headD "" := hbehind ▸ hne
  have hsecond : line ≠ (other :: rest).getD 1 "" := by rwa [Step.getD_one_cons]
  have hstep : Step.between (line :: rest) (other :: rest) = ⟨.remove line, rest, other :: rest⟩ :=
    Step.between_remove hbehind (meaningful_cons_of_ne hnext) hne hsecond
  rw [recordedBetween_eq, hstep]
  exact ⟨_, rfl⟩

/-- In front of a third line, the one stands in place of the other. -/
theorem recordedBetween_changed (hne : line ≠ other) (hline : rest.headD "" ≠ line)
    (hother : rest.headD "" ≠ other) :
    recordedBetween (line :: rest) (other :: rest)
      = [⟨.observed, other⟩, ⟨.expected, line⟩] := by
  have hstep : Step.between (line :: rest) (other :: rest) = ⟨.substitute other line, rest, rest⟩ :=
    Step.between_substitute (meaningful_cons_of_ne hline.symm) (meaningful_cons_of_ne hother.symm)
      hne hline.symm hother.symm
  rw [recordedBetween_eq, hstep, recordedBetween_self]
  rfl

/-- The lines in front of the place are passed over. -/
theorem recordedBetween_set {lines : List String} {place : Nat} (hline : lines[place]? = some line) :
    recordedBetween lines (lines.set place other)
      = recordedBetween (line :: lines.drop (place + 1)) (other :: lines.drop (place + 1)) := by
  have hplace : place < lines.length := (List.getElem?_eq_some_iff.mp hline).1
  have happend := recordedBetween_append (lines.take place) (line :: lines.drop (place + 1))
    (other :: lines.drop (place + 1))
  rw [take_append_cons_drop hline] at happend
  rw [List.set_eq_take_append_cons_drop, if_pos hplace, happend]

namespace Alignment

/-- **One line in place of another.**  Compare readers over any two sources of which the actual one
delivers the lines of the expected one with another line in one place.  Exactly the one line is
reported to stand where the other was expected if and only if the line right behind (the empty line
past the end) is neither of them.  If it is the expected line, the other one is reported as added
first, and if it is the other one, the expected line as removed; so the two sides never match. -/
theorem diagnostics_run_changed {expected actual : Source} {lines : List String}
    {line other : String} {place : Nat} (hline : lines[place]? = some line) (hne : other ≠ line)
    (hexpected : expected.lines = lines) (hactual : actual.lines = lines.set place other) :
    let alignment := (run (.ofSource expected) (.ofSource actual)).value
    let behind := lines.getD (place + 1) ""
    (alignment.diagnostics = [⟨.observed, other⟩, ⟨.expected, line⟩] ↔
        behind ≠ line ∧ behind ≠ other) ∧
      (behind = line → alignment.diagnostics.head? = some ⟨.added, other⟩) ∧
      (behind = other → alignment.diagnostics.head? = some ⟨.removed, line⟩) ∧
      alignment.isMatch = false := by
  intro alignment behind
  have hrecorded : alignment.diagnostics
      = recordedBetween (line :: lines.drop (place + 1)) (other :: lines.drop (place + 1)) := by
    rw [diagnostics_run_ofSource, hexpected, hactual, recordedBetween_set hline]
  have hbehind : (lines.drop (place + 1)).headD "" = behind := headD_drop lines (place + 1)
  by_cases hrepeated : behind = line
  · obtain ⟨others, hothers⟩ :=
      recordedBetween_changed_repeated hne.symm (hbehind.trans hrepeated)
    obtain ⟨hmisread, hfirst, hmatch⟩ :=
      begins_of_cons (hrecorded.trans hothers) [⟨.observed, other⟩, ⟨.expected, line⟩] nofun
    exact ⟨iff_of_false hmisread fun h => h.1 hrepeated, fun _ => hfirst,
      fun hsame => absurd (hsame.symm.trans hrepeated) hne, hmatch⟩
  · by_cases hanticipated : behind = other
    · obtain ⟨others, hothers⟩ :=
        recordedBetween_changed_anticipated hne.symm (hbehind.trans hanticipated)
      obtain ⟨hmisread, hfirst, hmatch⟩ :=
        begins_of_cons (hrecorded.trans hothers) [⟨.observed, other⟩, ⟨.expected, line⟩] nofun
      exact ⟨iff_of_false hmisread fun h => h.2 hanticipated,
        fun hsame => absurd hsame hrepeated, fun _ => hfirst, hmatch⟩
    · have htold := hrecorded.trans (recordedBetween_changed hne.symm (hbehind ▸ hrepeated)
        (hbehind ▸ hanticipated))
      exact ⟨iff_of_true htold ⟨hrepeated, hanticipated⟩, fun hsame => absurd hsame hrepeated,
        fun hsame => absurd hsame hanticipated, isMatch_eq_false_of_cons htold⟩

/-- The last line is told to be changed, since the empty line behind it is neither the expected nor
the actual one; a line in front of an equal one, and a blank line that is put in front of a blank
one, are misread. -/
theorem diagnostics_run_changed_last :
    let lines := ["a", "a", "", "b"]
    let feed := [Delivery.bytes [0x61, 0x0A, 0x61], .interrupted, .bytes [0x0A, 0x0A, 0x62]]
    lines[3]? = some "b" ∧ lines[0]? = some "a" ∧ lines[1]? = some "a" ∧
      "c" ≠ "b" ∧ "c" ≠ "a" ∧ "" ≠ "a" ∧ (Source.ofDeliveries feed).lines = lines ∧
      (Source.ofText "a\na\n\nc").lines = lines.set 3 "c" ∧
      (Source.ofText "c\na\n\nb").lines = lines.set 0 "c" ∧
      (Source.ofText "a\n\n\nb").lines = lines.set 1 "" ∧
      (run (.ofDeliveries feed) (.ofText "a\na\n\nc")).value.diagnostics
        = [⟨.observed, "c"⟩, ⟨.expected, "b"⟩] ∧
      (run (.ofDeliveries feed) (.ofText "c\na\n\nb")).value.diagnostics.head?
        = some ⟨.added, "c"⟩ ∧
      (run (.ofDeliveries feed) (.ofText "a\n\n\nb")).value.diagnostics.head?
        = some ⟨.removed, "a"⟩ := by
  intro lines feed
  have hlines : (Source.ofDeliveries feed).lines = lines := by decide +kernel
  have hlast : (Source.ofText "a\na\n\nc").lines = lines.set 3 "c" := by decide +kernel
  have hfirst : (Source.ofText "c\na\n\nb").lines = lines.set 0 "c" := by decide +kernel
  have hblank : (Source.ofText "a\n\n\nb").lines = lines.set 1 "" := by decide +kernel
  have hb : lines[3]? = some "b" := rfl
  have ha : lines[0]? = some "a" := rfl
  have haAgain : lines[1]? = some "a" := rfl
  have htold := diagnostics_run_changed hb (by decide) hlines hlast
  have hadded := diagnostics_run_changed ha (by decide) hlines hfirst
  have hremoved := diagnostics_run_changed haAgain (by decide) hlines hblank
  exact ⟨hb, ha, haAgain, by decide, by decide, by decide, hlines, hlast, hfirst, hblank,
    htold.1.mpr (by decide), hadded.2.1 (by decide), hremoved.2.2.1 (by decide)⟩

end Alignment

end Golden
