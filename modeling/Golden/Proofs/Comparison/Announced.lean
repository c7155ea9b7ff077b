import Golden.Proofs.Comparison.Told
import Golden.Proofs.Line.Verdict
import Golden.Proofs.Screenshot.Differences

/-!
# Golden.Proofs.Comparison.Announced — one event for each comparison that fails

The build servers hear of a comparison exactly when it fails, and then once.  Events are announced in
four places: where texts first differ, where an expectation is missing, where a screenshot cannot be
scored, and where its ratio is too high.  What the places have in common is
`Comparison.Announces`: a comparison that passed has no event to tell, and one that failed has one
event, which says what the report says (`Event.Describes`).  Every exit of every kind of comparison
is of this form.

Telling adds to what an audience has heard exactly the events there are to tell, in order
(`Audience.heard_hearAll`), and each annotator puts each of them once
(`Audience.annotations_hearAll`).  So what a comparison announces is what a call hands on
(`Verifier.tells_answer`), which is nothing or one thing (`Verifier.announced_answer`), and a series
of calls does so call by call (`Verifier.session_announced`).

A call that was broken off has nothing to report and nothing to announce.  Only what is `Oversized`
can be.
-/

namespace Golden

/-! ## Reports and their events -/

/-- A report as comparisons make them. -/
structure Report.WellFormed (r : Report) : Prop where
  output : r.kind = .output →
    r.errorRatio = none ∧ (r.passed = true ↔ r.error = none ∧ r.diagnostics = [])
  screenshot : r.kind = .screenshot →
    r.diagnostics = [] ∧ r.errorRatio.isSome = true ∧
      (r.error.isSome = true → r.errorRatio = some Score.sentinel ∧ r.passed = false)

theorem Report.wellFormed_failed (test : String) (kind : Kind) (error : String) :
    (failed test kind error).WellFormed := by
  constructor
  · rintro rfl
    exact ⟨rfl, by simp [failed]⟩
  · rintro rfl
    exact ⟨rfl, rfl, fun _ => ⟨rfl, rfl⟩⟩

theorem Report.wellFormed_ofScore (c : Config) (test : String) (score : Score) :
    (ofScore c test score).WellFormed := by
  constructor
  · intro hkind
    cases hkind
  · intro _
    exact ⟨rfl, rfl, fun herror => by cases herror⟩

/-- What a report must say for an event to be the one that tells it. -/
def Event.Describes (r : Report) : Event → Prop
  | .expectationMissing => r.kind = .output ∧ r.error.isSome = true
  | .outputMismatch => r.kind = .output ∧ r.error = none ∧ r.diagnostics ≠ []
  | .screenshotError message => r.kind = .screenshot ∧ r.error = some message
  | .screenshotMismatch ratio =>
    r.kind = .screenshot ∧ r.error = none ∧ r.errorRatio = some ratio

namespace Comparison

/-- A comparison of a kind for a test whose report is well-formed and whose events are those of the
report: none if it passed, and otherwise the one that describes it. -/
structure Announces (test : String) (kind : Kind) (c : Comparison) : Prop where
  test_eq : c.report.test = test
  kind_eq : c.report.kind = kind
  wellFormed : c.report.WellFormed
  quiet : c.report.passed = true → c.events = []
  told : c.report.passed = false → ∃ event : Event, c.events = [event] ∧ event.Describes c.report

/-! ## Screenshots -/

/-- What is only for the log is no event. -/
theorem filterMap_event?_notes (notices : List Notice) :
    (notices.map Telling.note).filterMap Telling.event? = [] := by
  rw [List.filterMap_map]
  exact List.filterMap_eq_nil_iff.mpr fun _ _ => rfl

theorem events_after (notices : List Notice) (c : Comparison) :
    (after notices c).events = c.events := by
  rw [events, after, List.filterMap_append, filterMap_event?_notes]
  rfl

theorem Announces.after {test : String} {kind : Kind} {c : Comparison} (h : c.Announces test kind)
    (notices : List Notice) : (after notices c).Announces test kind := by
  refine ⟨h.test_eq, h.kind_eq, h.wellFormed, ?_, ?_⟩
  · intro hpassed
    rw [events_after]
    exact h.quiet hpassed
  · intro hfailed
    rw [events_after]
    exact h.told hfailed

variable (c : Config) (fs : Files) (test : String) (pixels reference : Array UInt32) (v : View)
  (p : Path)

theorem announces_screenshotFailed (failure : Failure) :
    (screenshotFailed fs test failure).Announces test .screenshot := by
  refine ⟨rfl, rfl, Report.wellFormed_failed .., ?_, ?_⟩
  · intro hpassed
    cases hpassed
  · intro _
    exact ⟨.screenshotError failure.message, rfl, rfl, rfl⟩

theorem announces_ofScore (score : Score) :
    (ofScore c fs test pixels reference v score).Announces test .screenshot := by
  have hreport := report_ofScore c fs test pixels reference v score
  refine ⟨?_, ?_, ?_, ?_, ?_⟩
  · rw [hreport]
    rfl
  · rw [hreport]
    rfl
  · rw [hreport]
    exact Report.wellFormed_ofScore c test score
  · intro hpassed
    rw [hreport] at hpassed
    simp only [ofScore, if_pos hpassed]
    rfl
  · intro hfailed
    rw [hreport] at hfailed ⊢
    refine ⟨.screenshotMismatch score.ratio, ?_, rfl, rfl, rfl⟩
    simp only [ofScore, if_neg (Bool.eq_false_iff.mp hfailed)]
    exact congrArg (.screenshotMismatch score.ratio :: ·) (filterMap_event?_notes _)

theorem announces_ofPixels :
    ∀ x ∈ ofPixels c fs test pixels v p, x.Announces test .screenshot :=
  forall_ofPixels (fun notices _ h => h.after notices) (announces_screenshotFailed fs test)
    (fun words score => announces_ofScore c fs test pixels words v score) p

theorem announces_ofScreenshot (capture : Capture) :
    ∀ x ∈ ofScreenshot c fs test capture v p, x.Announces test .screenshot :=
  forall_ofScreenshot (fun notices _ h => h.after notices) (announces_screenshotFailed fs test)
    (fun pixels words score => announces_ofScore c fs test pixels words v score) capture p

/-! ## Output -/

/-- An alignment announces as many mismatches as it meets. -/
theorem filterMap_event?_telling (met : List LineEvent) :
    (met.map LineEvent.telling).filterMap Telling.event?
      = List.replicate (met.count .firstMismatch) .outputMismatch := by
  induction met with
  | nil => rfl
  | cons event met ih =>
      cases event with
      | readFailed cause =>
          have hcount : (LineEvent.readFailed cause :: met).count .firstMismatch
              = met.count .firstMismatch := List.count_cons_of_ne (by simp)
          rw [hcount, ← ih]
          rfl
      | firstMismatch =>
          rw [List.count_cons_self, List.replicate_succ, ← ih]
          rfl

variable (verbose : Bool) (expectation : Path) (output : String)

theorem announces_expectationMissing (cause : Cause) :
    (expectationMissing fs test expectation cause).Announces test .output := by
  refine ⟨rfl, rfl, Report.wellFormed_failed .., ?_, ?_⟩
  · intro hpassed
    cases hpassed
  · intro _
    exact ⟨.expectationMissing, rfl, rfl, rfl⟩

/-- An expectation that could be opened is announced to be missed once if it is, and else never. -/
theorem events_ofOpened (feed : List Delivery) :
    (ofOpened verbose fs test expectation output (.ok feed)).events
      = List.replicate
          (if (ofOpened verbose fs test expectation output (.ok feed)).report.passed then 0 else 1)
          .outputMismatch := by
  -- the rest of what is told is for the log and for whoever reads the output
  have hmet : (ofOpened verbose fs test expectation output (.ok feed)).events
      = ((Alignment.run (.ofDeliveries feed) (.ofText output)).events.map
          LineEvent.telling).filterMap Telling.event? := by
    cases verbose <;> simp [events, ofOpened, Telling.event?]
  rw [hmet, filterMap_event?_telling, Alignment.count_firstMismatch_run]
  rfl

theorem announces_ofOpened (opened : Except Cause (List Delivery)) :
    (ofOpened verbose fs test expectation output opened).Announces test .output := by
  cases opened with
  | error cause => exact announces_expectationMissing fs test expectation cause
  | ok feed =>
      have hpassed := Alignment.isMatch_iff_diagnostics
        (Alignment.run (.ofDeliveries feed) (.ofText output)).value
      have hevents := events_ofOpened fs test verbose expectation output feed
      refine ⟨rfl, rfl, ⟨?_, ?_⟩, ?_, ?_⟩
      · -- there is no error here, so that only the diagnostics decide
        intro _
        refine ⟨rfl, hpassed.trans ?_⟩
        exact ⟨fun hnone => ⟨rfl, hnone⟩, fun hnone => hnone.2⟩
      · intro hkind
        cases hkind
      · intro hmatch
        rw [if_pos hmatch] at hevents
        exact hevents
      · intro hdiffers
        have hdiffers' := Bool.eq_false_iff.mp hdiffers
        rw [if_neg hdiffers'] at hevents
        refine ⟨.outputMismatch, hevents, rfl, rfl, ?_⟩
        intro hnone
        exact hdiffers' (hpassed.mpr hnone)

end Comparison

/-! ## Audiences -/

/-- Every annotator puts an event, one after the other. -/
theorem Annotator.value_annotateAll (annotators : List Annotator) (sink : Sink) (test : String)
    (event : Event) :
    (annotateAll annotators sink test event).value
      = annotators.foldl (fun sink a => (a.annotate sink test event).value) sink := by
  induction annotators generalizing sink with
  | nil => rfl
  | cons a rest ih => exact ih (a.annotate sink test event).value

namespace Audience

variable (annotators : List Annotator) (test : String)

/-- Telling adds the events to what has been heard. -/
theorem heard_hearAll (a : Audience) (tellings : List Telling) :
    (a.hearAll annotators test tellings).value.heard
      = a.heard ++ (tellings.filterMap Telling.event?).map (test, ·) := by
  induction tellings generalizing a with
  | nil => exact (List.append_nil a.heard).symm
  | cons telling rest ih =>
      rw [hearAll, Traced.value_bind, ih]
      cases telling with
      | note notice => rfl
      | print channel text => rfl
      | announce event => exact List.append_assoc a.heard [(test, event)] _

/-- Telling has every annotator put every event. -/
theorem annotations_hearAll (a : Audience) (tellings : List Telling) :
    (a.hearAll annotators test tellings).value.annotations
      = (tellings.filterMap Telling.event?).foldl
          (fun sink event => (Annotator.annotateAll annotators sink test event).value)
          a.annotations := by
  induction tellings generalizing a with
  | nil => rfl
  | cons telling rest ih =>
      rw [hearAll, Traced.value_bind, ih]
      cases telling <;> rfl

end Audience

/-! ## Calls of a verifier -/

/-- One call of a verifier. -/
inductive Call
  | output (test : String) (expectation : Path) (output : String)
  | screenshot (test : String) (capture : Capture) (view : View) (reference : Path)
  | pixels (test : String) (pixels : Array UInt32) (view : View) (reference : Path)

namespace Call

def test : Call → String
  | output test .. | screenshot test .. | pixels test .. => test

def kind : Call → Kind
  | output .. => .output
  | screenshot .. | pixels .. => .screenshot

/-- What comes of a call, before anybody is told, unless it is broken off. -/
def comparison (c : Config) (fs : Files) : Call → Option Comparison
  | .output test expectation text => some (.ofOutput c.verbose fs test expectation text)
  | .screenshot test capture view reference =>
    Comparison.ofScreenshot c fs test capture view reference
  | .pixels test buffer view reference => Comparison.ofPixels c fs test buffer view reference

/-- The events of a call. -/
def events (c : Config) (fs : Files) (call : Call) : List Event :=
  (call.comparison c fs).elim [] Comparison.events

/-- A call whose words are more than a vector can hold: those of the canonical form that a capture
is asked for, or the pixels themselves. -/
def Oversized : Call → Prop
  | .output .. => False
  | .screenshot _ capture view _ => capture.Overlong view
  | .pixels _ buffer _ _ => vectorLimit < 4 * buffer.size

theorem announces_comparison (c : Config) (fs : Files) (call : Call) :
    ∀ x ∈ call.comparison c fs, x.Announces call.test call.kind := by
  cases call with
  | output test expectation output =>
      rintro x ⟨⟩
      exact Comparison.announces_ofOpened ..
  | screenshot test capture view reference =>
      exact Comparison.announces_ofScreenshot c fs test view reference capture
  | pixels test buffer view reference =>
      exact Comparison.announces_ofPixels c fs test buffer view reference

theorem oversized_of_comparison_eq_none {c : Config} {fs : Files} {call : Call}
    (h : call.comparison c fs = none) : call.Oversized := by
  cases call with
  | output test expectation output => cases h
  | screenshot test capture view reference => exact Comparison.ofScreenshot_eq_none_iff.mp h
  | pixels test buffer view reference =>
      obtain ⟨hcheck, hload⟩ := Comparison.ofPixels_eq_none_iff.mp h
      have hsize : view.words ≤ buffer.size := (View.check_eq_ok_iff.mp hcheck).size_le
      have hlong := (Reference.load_eq_overrun_iff.mp hload).2.2
      unfold View.words at hsize
      show vectorLimit < 4 * buffer.size
      omega

end Call

/-- A call, the audience it found, and what came of it. -/
structure Exchange where
  call : Call
  audience : Audience
  outcome : Outcome

/-- The events of a call have been handed to everybody who listens, one after the other: to the
record of events, and to each annotator, whatever the ones before it could write. -/
structure Exchange.Tells (annotators : List Annotator) (x : Exchange) (events : List Event) :
    Prop where
  heard : x.outcome.audience.heard = x.audience.heard ++ events.map (x.call.test, ·)
  annotations : x.outcome.audience.annotations
    = events.foldl (fun sink event =>
        annotators.foldl (fun sink a => (a.annotate sink x.call.test event).value) sink)
      x.audience.annotations

/-- What the annotators and the caller are to be told in one call that came to a report. -/
structure Exchange.Announced (annotators : List Annotator) (x : Exchange) (r : Report) : Prop where
  report_eq : x.outcome.report = some r
  test_eq : r.test = x.call.test
  kind_eq : r.kind = x.call.kind
  wellFormed : r.WellFormed
  quiet : r.passed = true →
    x.outcome.audience.heard = x.audience.heard ∧
      x.outcome.audience.annotations = x.audience.annotations
  told : r.passed = false →
    ∃ event : Event, event.Describes r ∧
      x.outcome.audience.heard = x.audience.heard ++ [(x.call.test, event)] ∧
      x.outcome.audience.annotations
        = annotators.foldl (fun sink a => (a.annotate sink x.call.test event).value)
            x.audience.annotations

/-- A call that was broken off before anybody was told of it. -/
structure Exchange.BrokenOff (x : Exchange) : Prop where
  report_eq : x.outcome.report = none
  oversized : x.call.Oversized
  audience_eq : x.outcome.audience = x.audience

namespace Verifier

variable (v : Verifier)

/-- What comes of a call. -/
def answer (fs : Files) (audience : Audience) : Call → Outcome
  | .output test expectation output => (v.compareOutput fs audience test expectation output).value
  | .screenshot test capture view reference =>
    (v.compareScreenshot fs audience test capture view reference).value
  | .pixels test pixels view reference =>
    (v.comparePixels fs audience test pixels view reference).value

/-- Several calls, each with the files and the audience that the one before it left. -/
def session : Files → Audience → List Call → List Exchange
  | _, _, [] => []
  | fs, audience, call :: rest =>
    let outcome := v.answer fs audience call
    ⟨call, audience, outcome⟩ :: session outcome.files outcome.audience rest

/-- A call is answered by telling of its comparison. -/
theorem answer_eq (fs : Files) (audience : Audience) (call : Call) :
    v.answer fs audience call
      = (v.tellIfAny fs audience (call.comparison v.config fs)).value := by
  cases call with
  | output test expectation output =>
      exact congrArg Traced.value (v.compareOpened_eq_tell fs audience test expectation output _)
  | screenshot test capture view reference =>
      exact congrArg Traced.value
        (v.compareScreenshot_eq_tellIfAny fs audience test capture view reference)
  | pixels test buffer view reference =>
      exact congrArg Traced.value
        (v.comparePixels_eq_tellIfAny fs audience test buffer view reference)

/-- What a comparison announces is what is handed on. -/
theorem tells_answer (fs : Files) (audience : Audience) (call : Call) :
    Exchange.Tells v.annotators ⟨call, audience, v.answer fs audience call⟩
      (call.events v.config fs) := by
  rw [answer_eq, Call.events]
  cases hcomparison : call.comparison v.config fs with
  | none => exact ⟨(List.append_nil _).symm, rfl⟩
  | some x =>
      have htest := (call.announces_comparison v.config fs x hcomparison).test_eq
      refine ⟨?_, ?_⟩
      · rw [← htest]
        exact Audience.heard_hearAll v.annotators _ audience _
      · rw [← htest]
        refine (Audience.annotations_hearAll v.annotators _ audience _).trans ?_
        simp only [Annotator.value_annotateAll]
        rfl

/-- **One call tells every annotator of a failure once, and of a pass nothing.** -/
theorem announced_answer (fs : Files) (audience : Audience) (call : Call) :
    (∃ r, Exchange.Announced v.annotators ⟨call, audience, v.answer fs audience call⟩ r) ∨
      Exchange.BrokenOff ⟨call, audience, v.answer fs audience call⟩ := by
  have hannounces := call.announces_comparison v.config fs
  have htells := v.tells_answer fs audience call
  rw [Call.events] at htells
  cases hcomparison : call.comparison v.config fs with
  | none =>
      right
      rw [answer_eq, hcomparison]
      exact ⟨rfl, Call.oversized_of_comparison_eq_none hcomparison, rfl⟩
  | some x =>
      left
      have h := hannounces x hcomparison
      rw [hcomparison] at htells
      obtain ⟨hheard, hannotations⟩ := htells
      refine ⟨x.report, ?_, h.test_eq, h.kind_eq, h.wellFormed, ?_, ?_⟩
      · rw [answer_eq, hcomparison]
        rfl
      · intro hpassed
        rw [Option.elim_some, h.quiet hpassed] at hheard hannotations
        exact ⟨hheard.trans (List.append_nil _), hannotations⟩
      · intro hfailed
        obtain ⟨event, hevents, hdescribes⟩ := h.told hfailed
        rw [Option.elim_some, hevents] at hheard hannotations
        exact ⟨event, hdescribes, hheard, hannotations⟩

/-- **A failure is told once, and a pass is not told at all.**  In a series of calls, on any files
and for any audience, every call is answered by a well-formed report of its own test and kind.  If
the report passed, nobody hears of it; if it did not, every annotator puts exactly one event, under
the name of the test, and the event says what the report says.  The one exception are calls for more
words than a vector can hold: such a call may be broken off, without a report and without a word to
anybody. -/
theorem session_announced (fs : Files) (audience : Audience) (calls : List Call) :
    (v.session fs audience calls).map Exchange.call = calls ∧
      ∀ x ∈ v.session fs audience calls, (∃ r, x.Announced v.annotators r) ∨ x.BrokenOff := by
  induction calls generalizing fs audience with
  | nil =>
      refine ⟨rfl, ?_⟩
      intro x hx
      cases hx
  | cons call rest ih =>
      -- the other calls go on from the files and the audience that this one leaves
      obtain ⟨hcalls, hrest⟩ :=
        ih (v.answer fs audience call).files (v.answer fs audience call).audience
      refine ⟨congrArg (call :: ·) hcalls, ?_⟩
      intro x hx
      rcases List.mem_cons.mp hx with rfl | hx
      · exact v.announced_answer fs audience call
      · exact hrest x hx

end Verifier

end Golden
