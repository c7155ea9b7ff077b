import Golden.Proofs.Comparison.Confined
import Golden.Proofs.Comparison.Report

/-!
# Golden.Proofs.Comparison.Unswayed — no listener sways a report

Two verifiers are given the same call.  They may be told differently how much to print and which
build servers to annotate for, their audiences may refuse what they like, and they may have been
through different calls before.  As long as they tolerate the same error ratio and the call reads
the same in both, they come to the same report and hand the same events to every listener
(`Verifier.answer_unswayed`).

There are two halves to this.  A report depends on nothing but the call, the tolerated ratio and
what can be read at the path that the call names (`Comparison.report_congr`); the file is read once,
and what verbose output reads again is only printed.  And the events are told by the report alone:
a well-formed report is described by one event at most (`Event.eq_of_describes`), so comparisons
with equal reports announce the same (`Comparison.Announces.events_eq`).

What has been announced is then handed on whatever the sinks do.  Each event is put by every
annotator in turn, each on the sink as the one before it left it (`Exchange.Tells`).

Where two verifiers also leave their pictures in the same directory, they change the files alike.
Then nothing has to be assumed about what is read: two series of the same calls, begun on the same
files, agree throughout (`Verifier.session_unswayed`).
-/

namespace Golden

/-! ## What is read -/

/-- What can be read at a path; nothing where it cannot be opened, for whatever cause. -/
def Files.reading? (fs : Files) (p : Path) : Option (List Delivery) := (fs.deliveries p).toOption

/-- A path at which the same can be read. -/
def Files.SameReading (fs other : Files) (p : Path) : Prop := fs.reading? p = other.reading? p

/-- Two openings of files that read the same. -/
theorem Files.SameReading.cases {fs other : Files} {p : Path} (h : fs.SameReading other p) :
    (∃ cause cause', fs.resolve p = .error cause ∧ other.resolve p = .error cause') ∨
      ∃ place entry place' entry', fs.resolve p = .ok (place, entry) ∧
        other.resolve p = .ok (place', entry') ∧ entry.deliveries = entry'.deliveries := by
  unfold SameReading reading? deliveries at h
  cases hfs : fs.resolve p with
  | error cause =>
      cases hother : other.resolve p with
      | error cause' => exact Or.inl ⟨cause, cause', rfl, rfl⟩
      | ok found =>
          rw [hfs, hother] at h
          cases h
  | ok found =>
      cases hother : other.resolve p with
      | error cause' =>
          rw [hfs, hother] at h
          cases h
      | ok found' =>
          rw [hfs, hother] at h
          exact Or.inr ⟨found.1, found.2, found'.1, found'.2, rfl, rfl, Option.some.inj h⟩

/-- A load takes nothing from an entry but what reading it delivers. -/
theorem Reference.value_loadTraced_congr {fs other : Files} {p : Path}
    (h : fs.SameReading other p) (stride height : UInt32) :
    (loadTraced fs p stride height).value = (loadTraced other p stride height).value := by
  rw [value_loadTraced, value_loadTraced, load, load]
  rcases h.cases with ⟨cause, cause', hfs, hother⟩ |
    ⟨place, entry, place', entry', hfs, hother, hdeliveries⟩
  · rw [hfs, hother]
    rfl
  · rw [hfs, hother]
    dsimp only
    -- only behind the tests of the size does it matter what there is to read
    split
    · rfl
    · split
      · rfl
      · split
        · rfl
        · cases entry with
          | directory =>
              cases entry' with
              | directory => rfl
              | file content => cases hdeliveries
          | file content =>
              cases entry' with
              | directory => cases hdeliveries
              | file content' =>
                  have hbytes : content.bytes = content'.bytes := by
                    simpa [Entry.deliveries] using hdeliveries
                  dsimp only
                  rw [hbytes]

theorem Reference.compare_congr {fs other : Files} {p : Path} (h : fs.SameReading other p)
    (pixels : Array UInt32) (v : View) : compare fs p pixels v = compare other p pixels v := by
  unfold compare
  rw [value_loadTraced_congr h]

/-! ## Reports tell their events -/

/-- At most one event describes a report. -/
theorem Event.eq_of_describes {r : Report} {event other : Event} (h : event.Describes r)
    (h' : other.Describes r) : event = other := by
  unfold Describes at h h'
  -- kind and error of the report tell the four kinds of events apart
  cases event <;> cases other <;> simp_all

/-- **Comparisons with equal reports announce the same.** -/
theorem Comparison.Announces.events_eq {test test' : String} {kind kind' : Kind}
    {x y : Comparison} (hx : x.Announces test kind) (hy : y.Announces test' kind')
    (hreport : x.report = y.report) : x.events = y.events := by
  cases hpassed : x.report.passed with
  | true =>
      have hpassed' : y.report.passed = true := hreport ▸ hpassed
      rw [hx.quiet hpassed, hy.quiet hpassed']
  | false =>
      have hpassed' : y.report.passed = false := hreport ▸ hpassed
      obtain ⟨event, hevents, hdescribes⟩ := hx.told hpassed
      obtain ⟨other, hevents', hdescribes'⟩ := hy.told hpassed'
      rw [hevents, hevents', Event.eq_of_describes hdescribes (hreport ▸ hdescribes')]

/-! ## Calls -/

/-- The path that a call reads. -/
def Call.reads : Call → Path
  | .output _ expectation _ => expectation
  | .screenshot _ _ _ reference | .pixels _ _ _ reference => reference

namespace Comparison

/-- An expectation is aligned with as much of it as can be read. -/
theorem report_ofOutput_congr {fs other : Files} {expectation : Path}
    (h : fs.SameReading other expectation) (verbose verbose' : Bool) (test output : String) :
    (ofOutput verbose fs test expectation output).report
      = (ofOutput verbose' other test expectation output).report := by
  unfold ofOutput Files.deliveries
  rcases h.cases with ⟨cause, cause', hfs, hother⟩ |
    ⟨place, entry, place', entry', hfs, hother, hdeliveries⟩
  · rw [hfs, hother]
    rfl
  · rw [hfs, hother]
    show Report.ofAlignment test (Alignment.run (.ofDeliveries entry.deliveries) _).value
      = Report.ofAlignment test (Alignment.run (.ofDeliveries entry'.deliveries) _).value
    rw [hdeliveries]

theorem ratioReport_congr {c d : Config} (h : c.maxErrorRatio = d.maxErrorRatio) (test : String)
    (outcome : Except Obstacle Float) :
    ratioReport c test outcome = ratioReport d test outcome := by
  rcases outcome with ⟨_ | _⟩ | ratio
  · rfl
  · rfl
  · rw [ratioReport, ratioReport, h]

/-- **A report depends on the call, the tolerated ratio and what is read**, and so does it whether
there is one. -/
theorem report_congr {c d : Config} (hratio : c.maxErrorRatio = d.maxErrorRatio)
    {fs other : Files} {call : Call} (hread : fs.SameReading other call.reads) :
    (call.comparison c fs).map (·.report) = (call.comparison d other).map (·.report) := by
  cases call with
  | output test expectation output =>
      exact congrArg some (report_ofOutput_congr hread _ _ test output)
  | screenshot test capture view reference =>
      show (ofScreenshot c fs test capture view reference).map (·.report)
        = (ofScreenshot d other test capture view reference).map (·.report)
      change fs.SameReading other reference at hread
      rw [report_ofScreenshot_eq, report_ofScreenshot_eq]
      simp only [Reference.compare_congr hread]
      exact ratioReport_congr hratio test _
  | pixels test pixels view reference =>
      show (ofPixels c fs test pixels view reference).map (·.report)
        = (ofPixels d other test pixels view reference).map (·.report)
      change fs.SameReading other reference at hread
      rw [report_ofPixels, report_ofPixels, Reference.compare_congr hread]
      exact ratioReport_congr hratio test _

/-- The files of a comparison depend on what is tolerated and on the place for pictures. -/
theorem files_congr {c d : Config} (hratio : c.maxErrorRatio = d.maxErrorRatio)
    (hdirectory : c.diffDirectory = d.diffDirectory) (fs : Files) (call : Call) :
    (call.comparison c fs).map (·.files) = (call.comparison d fs).map (·.files) := by
  cases call with
  | output test expectation output =>
      show some (ofOpened c.verbose fs test expectation output _).files
        = some (ofOpened d.verbose fs test expectation output _).files
      cases fs.deliveries expectation <;> rfl
  | screenshot test capture view reference =>
      obtain ⟨verbose, teamCity, gitHub, ratio, directory⟩ := c
      subst hratio hdirectory
      rfl
  | pixels test pixels view reference =>
      obtain ⟨verbose, teamCity, gitHub, ratio, directory⟩ := c
      subst hratio hdirectory
      rfl

end Comparison

/-- **Calls with equal reports have the same events.** -/
theorem Call.events_congr {c d : Config} {fs other : Files} {call : Call}
    (hreport : (call.comparison c fs).map (·.report) = (call.comparison d other).map (·.report)) :
    call.events c fs = call.events d other := by
  have hx := call.announces_comparison c fs
  have hy := call.announces_comparison d other
  unfold events
  cases hfirst : call.comparison c fs with
  | none =>
      cases hsecond : call.comparison d other with
      | none => rfl
      | some y =>
          rw [hfirst, hsecond] at hreport
          cases hreport
  | some x =>
      cases hsecond : call.comparison d other with
      | none =>
          rw [hfirst, hsecond] at hreport
          cases hreport
      | some y =>
          rw [hfirst, hsecond] at hreport
          exact (hx x hfirst).events_eq (hy y hsecond) (Option.some.inj hreport)

/-! ## Two runs -/

namespace Exchange

/-- Two exchanges in which the same was reported, and the same events were handed on. -/
structure Agrees (annotators annotators' : List Annotator) (x y : Exchange) : Prop where
  call_eq : x.call = y.call
  report_eq : x.outcome.report = y.outcome.report
  told : ∃ events, x.Tells annotators events ∧ y.Tells annotators' events

end Exchange

namespace Verifier

variable {v w : Verifier}

/-- One call, on files that read the same to it. -/
theorem agrees_answer (hratio : v.config.maxErrorRatio = w.config.maxErrorRatio)
    {fs fs' : Files} {call : Call} (hread : fs.SameReading fs' call.reads)
    (audience audience' : Audience) :
    Exchange.Agrees v.annotators w.annotators ⟨call, audience, v.answer fs audience call⟩
      ⟨call, audience', w.answer fs' audience' call⟩ := by
  have hreport := Comparison.report_congr hratio hread
  refine ⟨rfl, ?_, _, v.tells_answer fs audience call, ?_⟩
  · show (v.answer fs audience call).report = (w.answer fs' audience' call).report
    rw [answer_eq, answer_eq, report_tellIfAny, report_tellIfAny]
    exact hreport
  · rw [Call.events_congr hreport]
    exact w.tells_answer fs' audience' call

/-- **Reporting never sways a report.**  Let two verifiers tolerate the same error ratio; what they
print, for which build servers they annotate and where they leave pictures may differ.  Let each
have been through any calls, on any files and before any audience, and then be given the same call.
If the path that the call names reads the same in both, the reports are the same, and so are the
events that each hands to everybody who listens. -/
theorem answer_unswayed (hratio : v.config.maxErrorRatio = w.config.maxErrorRatio)
    (fs fs' : Files) (audience audience' : Audience) (earlier earlier' : List Call) (call : Call)
    (hread : (v.leave fs audience earlier).1.SameReading (w.leave fs' audience' earlier').1
      call.reads) :
    let (found, listening) := v.leave fs audience earlier
    let (found', listening') := w.leave fs' audience' earlier'
    Exchange.Agrees v.annotators w.annotators ⟨call, listening, v.answer found listening call⟩
      ⟨call, listening', w.answer found' listening' call⟩ :=
  agrees_answer hratio hread _ _

/-- A verifier that prints and annotates all it can, before an audience that takes next to nothing
of it, reports what a silent one does, and tells the same. -/
theorem answer_unswayed_refused :
    let fs : Files := ⟨[(["clear.txt"], .file (.raw (bytesOfText "red\n")))], []⟩
    let talkative : Verifier := .ofConfig ⟨true, true, true, 0, some ⟨"diffs"⟩⟩
    let silent : Verifier := .ofConfig .default
    let refusing : Audience := ⟨[], ⟨[], none, [some ⟨3, .sinkFull⟩]⟩, .limited 0⟩
    let earlier : Call := .output "sky" ⟨"/sky.txt"⟩ ""
    let call : Call := .output "clear" ⟨"/clear.txt"⟩ "blue\n"
    let (found, listening) := talkative.leave fs refusing [earlier]
    (silent.answer fs .attentive call).report.map (·.passed) = some false ∧
    talkative.config.maxErrorRatio = silent.config.maxErrorRatio ∧
    found.SameReading fs call.reads ∧
    Exchange.Agrees talkative.annotators silent.annotators
      ⟨call, listening, talkative.answer found listening call⟩
      ⟨call, .attentive, silent.answer fs .attentive call⟩ := by
  intro fs talkative silent refusing earlier call
  have hfound : (talkative.leave fs refusing [earlier]).1 = fs :=
    (talkative.confined_answer fs refusing earlier).still fun h => Kind.noConfusion h.1
  have hread : (talkative.leave fs refusing [earlier]).1.SameReading fs call.reads := by
    rw [hfound]
    rfl
  refine ⟨by decide +kernel, rfl, hread, ?_⟩
  exact answer_unswayed (v := talkative) (w := silent) rfl fs fs refusing .attentive [earlier] []
    call hread

/-- Verifiers that also leave their pictures in the same directory agree throughout a series of
calls, begun on the same files, and leave the same files. -/
theorem session_unswayed (hratio : v.config.maxErrorRatio = w.config.maxErrorRatio)
    (hdirectory : v.config.diffDirectory = w.config.diffDirectory) (fs : Files)
    (audience audience' : Audience) (calls : List Call) :
    List.Forall₂ (Exchange.Agrees v.annotators w.annotators)
        (v.session fs audience calls) (w.session fs audience' calls) ∧
      (v.leave fs audience calls).1 = (w.leave fs audience' calls).1 := by
  induction calls generalizing fs audience audience' with
  | nil => exact ⟨.nil, rfl⟩
  | cons call rest ih =>
      -- the files after this call are the same, and the other calls go on from there
      have hfiles : (v.answer fs audience call).files = (w.answer fs audience' call).files := by
        rw [answer_eq, answer_eq, files_tellIfAny, files_tellIfAny,
          Comparison.files_congr hratio hdirectory fs call]
      obtain ⟨hagrees, hleft⟩ := ih (v.answer fs audience call).files
        (v.answer fs audience call).audience (w.answer fs audience' call).audience
      rw [hfiles] at hagrees hleft
      refine ⟨.cons (agrees_answer hratio rfl audience audience') ?_, ?_⟩
      · rw [hfiles]
        exact hagrees
      · show (v.leave (v.answer fs audience call).files _ rest).1 = _
        rw [hfiles]
        exact hleft

end Verifier

end Golden
