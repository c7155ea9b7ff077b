import Golden.Proofs.Line.Collected
import Golden.Proofs.Pixel.Canonical
import Golden.Verifier

/-!
# Golden.Proofs.Comparison.Told — a comparison apart from its audience

A verifier tells its audience of a comparison while the comparison is going on, and a sink may refuse
whatever it is told.  Nothing comes back from there.  So a comparison can be looked at by itself
(`Comparison`): the report it comes to, the files it leaves, and what there is to tell, in order.
And **whatever a verifier does is what comes of telling the comparison to the audience when it is
all over** (`Verifier.compareOpened_eq_tell`, `Verifier.comparePixels_eq_tellIfAny`,
`Verifier.compareScreenshot_eq_tellIfAny`), for any audience, sinks and all.

A comparison that overruns memory has nothing to be looked at.  It is broken off before anything has
been told or changed.
-/

namespace Golden

/-! ## What there is to tell -/

/-- One thing a comparison has to tell. -/
inductive Telling
  | note (notice : Notice)
  | announce (event : Event)
  | print (channel : Channel) (texts : List String)

namespace Telling

def event? : Telling → Option Event
  | .announce event => some event
  | _ => none

end Telling

namespace Audience

/-- Tell one thing. -/
def hear (annotators : List Annotator) (test : String) (a : Audience) :
    Telling → Traced Notice Audience
  | .note notice => do
    Traced.report notice
    return a
  | .announce event => a.announce annotators test event
  | .print channel texts => a.print channel texts

/-- Tell several things in order. -/
def hearAll (annotators : List Annotator) (test : String) :
    Audience → List Telling → Traced Notice Audience
  | a, [] => pure a
  | a, telling :: rest => do
    let a ← a.hear annotators test telling
    hearAll annotators test a rest

variable (annotators : List Annotator) (test : String)

theorem hearAll_append (a : Audience) (tellings more : List Telling) :
    a.hearAll annotators test (tellings ++ more)
      = a.hearAll annotators test tellings >>= fun a => a.hearAll annotators test more := by
  induction tellings generalizing a with
  | nil => rfl
  | cons telling rest ih =>
      rw [List.cons_append, hearAll, hearAll, bind_assoc]
      congr 1
      funext a
      exact ih a

/-- What is only for the log leaves the audience as it is. -/
theorem hearAll_notes (a : Audience) (notices : List Notice) :
    a.hearAll annotators test (notices.map .note) = ⟨a, notices⟩ := by
  induction notices with
  | nil => rfl
  | cons notice rest ih =>
      show Traced.mk (a.hearAll annotators test (rest.map .note)).value
        (notice :: (a.hearAll annotators test (rest.map .note)).events) = _
      rw [ih]

end Audience

/-! ## Comparisons -/

/-- What came of a comparison, what it has to tell in order, and the files after it. -/
structure Comparison where
  report : Report
  tellings : List Telling
  files : Files

/-- What is told of an event met while aligning. -/
def LineEvent.telling : LineEvent → Telling
  | .readFailed cause => .note (.readStopped cause)
  | .firstMismatch => .announce .outputMismatch

namespace Comparison

/-- The events for the build servers. -/
def events (c : Comparison) : List Event := c.tellings.filterMap Telling.event?

/-- Put notices in front of what there is to tell. -/
def after (notices : List Notice) (c : Comparison) : Comparison :=
  { c with tellings := notices.map .note ++ c.tellings }

/-- The comparison with an expectation that could not be opened. -/
def expectationMissing (fs : Files) (test : String) (expectation : Path) (cause : Cause) :
    Comparison :=
  { report := .failed test .output (Failure.expectationMissing expectation).message
    tellings :=
      [.note (.openingFailed expectation cause), .note (.expectationMissing expectation),
        .announce .expectationMissing]
    files := fs }

/-- The comparison with what opening the expectation gave. -/
def ofOpened (verbose : Bool) (fs : Files) (test : String) (expectation : Path) (output : String) :
    Except Cause (List Delivery) → Comparison
  | .error cause => expectationMissing fs test expectation cause
  | .ok feed =>
    let run := Alignment.run (Reader.ofDeliveries feed) (Reader.ofText output)
    let report := Report.ofAlignment test run.value
    let expected := (fs.readText expectation textOfBytes?).toOption
    let texts :=
      if verbose then [.print .verboseOutput (fullTexts report.passed test expected output)] else []
    { report
      tellings :=
        run.events.map LineEvent.telling
          ++ [.note (.diffFinished report.diagnostics.length),
            .print .diagnostics (Diagnostic.printedLines report.diagnostics)]
          ++ texts
          ++ [.note (report.outputNotice expectation)]
      files := fs }

/-- The comparison of output with an expectation file. -/
def ofOutput (verbose : Bool) (fs : Files) (test : String) (expectation : Path) (output : String) :
    Comparison :=
  ofOpened verbose fs test expectation output (fs.deliveries expectation)

/-- The comparison of a screenshot that could not be scored. -/
def screenshotFailed (fs : Files) (test : String) (failure : Failure) : Comparison :=
  { report := .failed test .screenshot failure.message
    tellings :=
      [.note (.screenshotFailed test failure), .announce (.screenshotError failure.message)]
    files := fs }

/-- The comparison of a screenshot that came upon an obstacle, unless it was broken off there. -/
def ofObstacle (fs : Files) (test : String) : Obstacle → Option Comparison
  | .failure failure => some (screenshotFailed fs test failure)
  | .overrun => none

/-- The comparison of two buffers that have been scored. -/
def ofScore (c : Config) (fs : Files) (test : String) (pixels reference : Array UInt32) (v : View)
    (score : Score) : Comparison :=
  let report := Report.ofScore c test score
  if report.passed then
    ⟨report, [.note (.screenshotMatches test score.compared)], fs⟩
  else
    let picture := leavePicture c fs test pixels reference v
    { report
      tellings :=
        .note (.screenshotDiffers test score.mismatched score.compared score.ratio c.maxErrorRatio)
          :: .announce (.screenshotMismatch score.ratio) :: picture.events.map .note
      files := picture.value }

/-- A score alone decides the report, whatever comes of the picture of the differences. -/
@[simp] theorem report_ofScore (c : Config) (fs : Files) (test : String)
    (pixels reference : Array UInt32) (v : View) (score : Score) :
    (ofScore c fs test pixels reference v score).report = Report.ofScore c test score := by
  unfold ofScore
  dsimp only
  split <;> rfl

/-- The comparison of canonical pixels with a reference. -/
def ofPixels (c : Config) (fs : Files) (test : String) (pixels : Array UInt32) (v : View)
    (reference : Path) : Option Comparison :=
  match v.check pixels with
  | .error failure => some (screenshotFailed fs test failure)
  | .ok () =>
    let loaded := Reference.loadTraced fs reference v.stride v.height
    Option.map (after loaded.events) <|
      match loaded.value with
      | .error obstacle => ofObstacle fs test obstacle
      | .ok words =>
        match Score.ofPixels pixels words v with
        | .error failure => some (screenshotFailed fs test failure)
        | .ok score => some (ofScore c fs test pixels words v score)

/-- The comparison of a capture with a reference. -/
def ofScreenshot (c : Config) (fs : Files) (test : String) (capture : Capture) (v : View)
    (reference : Path) : Option Comparison :=
  let normalized := capture.normalizeTraced v.stride v.height
  Option.map (after normalized.events) <|
    match normalized.value with
    | .error obstacle => ofObstacle fs test obstacle
    | .ok buffer => ofPixels c fs test buffer.pixels v reference

/-! ### What all comparisons of screenshots have in common -/

section Forall

variable {P : Comparison → Prop} {c : Config} {fs : Files} {test : String} {v : View}

theorem forall_after (hafter : ∀ notices x, P x → P (after notices x)) {x? : Option Comparison}
    (h : ∀ x ∈ x?, P x) (notices : List Notice) : ∀ x ∈ x?.map (after notices), P x := by
  cases x? with
  | none => nofun
  | some x =>
      rintro _ ⟨⟩
      exact hafter notices x (h x rfl)

theorem forall_ofObstacle (hfailed : ∀ failure, P (screenshotFailed fs test failure))
    (obstacle : Obstacle) : ∀ x ∈ ofObstacle fs test obstacle, P x := by
  cases obstacle with
  | failure failure =>
      rintro _ ⟨⟩
      exact hfailed failure
  | overrun => nofun

/-- **What comparing pixels comes to** has any property that a comparison has which failed or came to
a score, if notices in front do not matter to it. -/
theorem forall_ofPixels (hafter : ∀ notices x, P x → P (after notices x))
    (hfailed : ∀ failure, P (screenshotFailed fs test failure)) {pixels : Array UInt32}
    (hscored : ∀ words score, P (ofScore c fs test pixels words v score)) (reference : Path) :
    ∀ x ∈ ofPixels c fs test pixels v reference, P x := by
  unfold ofPixels
  split
  · -- pixels that do not cover the view
    rintro _ ⟨⟩
    exact hfailed _
  · refine forall_after hafter ?_ _
    split
    · exact forall_ofObstacle hfailed _
    · split
      · rintro _ ⟨⟩
        exact hfailed _
      · rintro _ ⟨⟩
        exact hscored _ _

/-- The same of a capture. -/
theorem forall_ofScreenshot (hafter : ∀ notices x, P x → P (after notices x))
    (hfailed : ∀ failure, P (screenshotFailed fs test failure))
    (hscored : ∀ pixels words score, P (ofScore c fs test pixels words v score))
    (capture : Capture) (reference : Path) :
    ∀ x ∈ ofScreenshot c fs test capture v reference, P x := by
  unfold ofScreenshot
  refine forall_after hafter ?_ _
  split
  · exact forall_ofObstacle hfailed _
  · exact forall_ofPixels hafter hfailed (hscored _) reference

end Forall

end Comparison

/-! ## Overruns -/

namespace Capture

/-- A complete capture in a view whose words are more than a vector can hold. -/
def Overlong (c : Capture) (v : View) : Prop :=
  (∃ format, c.Complete format) ∧ vectorLimit < 4 * (v.stride.toNat * v.height.toNat)

theorem overlong_iff {c : Capture} {v : View} :
    c.Overlong v ↔ c.normalize v.stride v.height = .error .overrun :=
  normalize_eq_overrun_iff.symm

end Capture

namespace Reference

/-- **A load overruns** when there is something to open and the words that are asked for can be
counted but held by no vector. -/
theorem load_eq_overrun_iff {fs : Files} {p : Path} {stride height : UInt32} :
    load fs p stride height = .error .overrun ↔
      (∃ found, fs.resolve p = .ok found) ∧ 4 * (stride.toNat * height.toNat) < addressLimit ∧
        vectorLimit < 4 * (stride.toNat * height.toNat) := by
  unfold load
  cases fs.resolve p with
  | error cause => simp
  | ok found =>
      by_cases hlimit : addressLimit ≤ 4 * (stride.toNat * height.toNat)
      · simp [hlimit, Nat.not_lt_of_le hlimit]
      · by_cases hlong : vectorLimit < 4 * (stride.toNat * height.toNat)
        · simp [hlimit, hlong, Nat.lt_of_not_le hlimit]
        · -- behind the two limits a load is refused or succeeds
          simp only [hlimit, hlong, if_false, and_false, iff_false]
          split
          · nofun
          · split
            · nofun
            · split <;> nofun

end Reference

namespace Comparison

variable {c : Config} {fs : Files} {test : String} {v : View} {reference : Path}

theorem ofObstacle_eq_none_iff {obstacle : Obstacle} :
    ofObstacle fs test obstacle = none ↔ obstacle = .overrun := by
  cases obstacle <;> simp [ofObstacle]

/-- **A comparison of pixels is broken off** where the reference overruns. -/
theorem ofPixels_eq_none_iff {pixels : Array UInt32} :
    ofPixels c fs test pixels v reference = none ↔
      v.check pixels = .ok () ∧ Reference.load fs reference v.stride v.height = .error .overrun := by
  unfold ofPixels Reference.loadTraced
  cases v.check pixels with
  | error failure => simp
  | ok checked =>
      cases Reference.load fs reference v.stride v.height with
      | error problem =>
          cases problem <;> simp [Reference.LoadProblem.obstacle, ofObstacle]
      | ok words =>
          dsimp only
          cases Score.ofPixels pixels words v <;> simp

/-- **A comparison of a capture is broken off** where the capture is too long for its view.  Where its
canonical form can be made, the reference can be loaded or is refused. -/
theorem ofScreenshot_eq_none_iff {capture : Capture} :
    ofScreenshot c fs test capture v reference = none ↔ capture.Overlong v := by
  rw [ofScreenshot, Option.map_eq_none_iff, Capture.overlong_iff]
  show (match capture.normalize v.stride v.height with
    | .error obstacle => ofObstacle fs test obstacle
    | .ok buffer => ofPixels c fs test buffer.pixels v reference) = none ↔ _
  cases hform : capture.normalize v.stride v.height with
  | error obstacle => simp [ofObstacle_eq_none_iff]
  | ok buffer =>
      -- the words of the reference are as many as those of the buffer, for which there was room
      have hroom := Capture.room_of_normalize hform
      simp only [ofPixels_eq_none_iff, Reference.load_eq_overrun_iff, reduceCtorEq, iff_false]
      rintro ⟨-, -, -, hlong⟩
      exact absurd hlong (Nat.not_lt_of_le hroom)

end Comparison

/-- An overrun is not told to the log. -/
theorem Reference.events_loadTraced_of_overrun {fs : Files} {p : Path} {stride height : UInt32}
    (h : load fs p stride height = .error .overrun) :
    (loadTraced fs p stride height).events = [] := by
  rw [loadTraced, h]
  rfl

theorem Capture.events_normalizeTraced_of_overrun {c : Capture} {stride height : UInt32}
    (h : c.normalize stride height = .error .overrun) :
    (c.normalizeTraced stride height).events = [] := by
  rw [normalizeTraced, PixelBuffer.zeroed_of_lt (normalize_eq_overrun_iff.mp h).2]
  cases c.checkedFormat <;> rfl

/-! ## Telling -/

namespace Verifier

variable (v : Verifier) (fs : Files) (audience : Audience) (test : String)

/-- Tell an audience of a comparison. -/
def tell (c : Comparison) : Traced Notice Outcome := do
  let audience ← audience.hearAll v.annotators c.report.test c.tellings
  return ⟨some c.report, c.files, audience⟩

/-- Tell an audience of a comparison, unless it was broken off. -/
def tellIfAny : Option Comparison → Traced Notice Outcome
  | some c => v.tell audience c
  | none => pure ⟨none, fs, audience⟩

@[simp] theorem report_tellIfAny (c : Option Comparison) :
    (v.tellIfAny fs audience c).value.report = c.map (·.report) := by
  cases c <;> rfl

@[simp] theorem files_tellIfAny (c : Option Comparison) :
    (v.tellIfAny fs audience c).value.files = (c.map (·.files)).getD fs := by
  cases c <;> rfl

/-- What is put in front is told to the log. -/
theorem tell_after (notices : List Notice) (c : Comparison) :
    v.tell audience (c.after notices) = ⟨(), notices⟩ >>= fun _ => v.tell audience c := by
  unfold tell Comparison.after
  dsimp only
  rw [Audience.hearAll_append, Audience.hearAll_notes, bind_assoc]
  rfl

theorem tellIfAny_after (notices : List Notice) {c : Option Comparison}
    (h : c.map (Comparison.after notices) = none → notices = []) :
    v.tellIfAny fs audience (c.map (.after notices))
      = ⟨(), notices⟩ >>= fun _ => v.tellIfAny fs audience c := by
  cases c with
  | none =>
      rw [h rfl]
      rfl
  | some c => exact v.tell_after audience notices c

/-! ### Output -/

/-- An audience that listens to an alignment hears of its events one after the other. -/
theorem foldlM_attend_listener (events : List LineEvent) :
    events.foldlM (v.listener test).attend audience
      = audience.hearAll v.annotators test (events.map LineEvent.telling) := by
  induction events generalizing audience with
  | nil => rfl
  | cons event rest ih =>
      rw [List.foldlM_cons, List.map_cons, Audience.hearAll]
      have hevent : (v.listener test).attend audience event
          = audience.hear v.annotators test event.telling := by cases event <;> rfl
      rw [hevent]
      congr 1
      funext audience
      exact ih audience

/-- **A comparison of output is what comes of telling it when it is over.** -/
theorem compareOpened_eq_tell (expectation : Path) (output : String)
    (opened : Except Cause (List Delivery)) :
    v.compareOpened fs audience test expectation output opened
      = v.tell audience (.ofOpened v.config.verbose fs test expectation output opened) := by
  cases opened with
  | error cause =>
      simp only [compareOpened, tell, Comparison.ofOpened, Comparison.expectationMissing,
        Audience.hearAll, Audience.hear, bind_assoc, pure_bind, Report.failed]
  | ok feed =>
      -- the listener goes first once the alignment is over: the rest is in the same order already
      simp only [compareOpened, tell, Comparison.ofOpened, Alignment.runFor_eq,
        foldlM_attend_listener, Audience.hearAll_append, bind_assoc, pure_bind]
      cases v.config.verbose with
      | false =>
        simp only [Bool.false_eq_true, if_false, Audience.hearAll, Audience.hear, bind_assoc,
          pure_bind, Report.ofAlignment]
      | true =>
        simp only [if_true, Audience.hearAll, Audience.hear, bind_assoc, pure_bind,
          Report.ofAlignment]

/-! ### Screenshots -/

theorem screenshotFailed_eq (failure : Failure) :
    v.screenshotFailed fs audience test failure
      = v.tell audience (.screenshotFailed fs test failure) := by
  simp only [screenshotFailed, tell, Comparison.screenshotFailed, Report.failed, Audience.hearAll,
    Audience.hear, bind_assoc, pure_bind]

theorem screenshotStopped_eq (obstacle : Obstacle) :
    v.screenshotStopped fs audience test obstacle
      = v.tellIfAny fs audience (Comparison.ofObstacle fs test obstacle) := by
  cases obstacle with
  | failure failure => exact v.screenshotFailed_eq fs audience test failure
  | overrun => rfl

theorem screenshotScored_eq (pixels reference : Array UInt32) (view : View) (score : Score) :
    v.screenshotScored fs audience test pixels reference view score
      = v.tell audience (.ofScore v.config fs test pixels reference view score) := by
  by_cases hpassed : (Report.ofScore v.config test score).passed = true
  · simp only [screenshotScored, Comparison.ofScore, tell, Audience.hearAll, Audience.hear,
      bind_assoc, pure_bind, if_pos hpassed]
  · simp only [screenshotScored, Comparison.ofScore, tell, Audience.hearAll, Audience.hear,
      bind_assoc, pure_bind, if_neg hpassed, Audience.hearAll_notes]
    rfl

/-- **A comparison of pixels is what comes of telling it when it is over.** -/
theorem comparePixels_eq_tellIfAny (pixels : Array UInt32) (view : View) (reference : Path) :
    v.comparePixels fs audience test pixels view reference
      = v.tellIfAny fs audience
          (Comparison.ofPixels v.config fs test pixels view reference) := by
  -- where the comparison is broken off, the load has not told anything in front of it either
  have hsilent : Comparison.ofPixels v.config fs test pixels view reference = none →
      (Reference.loadTraced fs reference view.stride view.height).events = [] := fun hnone =>
    Reference.events_loadTraced_of_overrun (Comparison.ofPixels_eq_none_iff.mp hnone).2
  unfold Comparison.ofPixels at hsilent ⊢
  unfold comparePixels
  cases hcheck : view.check pixels with
  | error failure => exact v.screenshotFailed_eq fs audience test failure
  | ok checked =>
      rw [hcheck] at hsilent
      dsimp only at hsilent ⊢
      rw [Traced.bind_eq, v.tellIfAny_after fs audience _ hsilent]
      congr 1
      funext _
      cases (Reference.loadTraced fs reference view.stride view.height).value with
      | error obstacle => exact v.screenshotStopped_eq fs audience test obstacle
      | ok words =>
          dsimp only
          cases Score.ofPixels pixels words view with
          | error failure => exact v.screenshotFailed_eq fs audience test failure
          | ok score => exact v.screenshotScored_eq fs audience test pixels words view score

/-- **A comparison of a capture is what comes of telling it when it is over.** -/
theorem compareScreenshot_eq_tellIfAny (capture : Capture) (view : View) (reference : Path) :
    v.compareScreenshot fs audience test capture view reference
      = v.tellIfAny fs audience
          (Comparison.ofScreenshot v.config fs test capture view reference) := by
  have hsilent : Comparison.ofScreenshot v.config fs test capture view reference = none →
      (capture.normalizeTraced view.stride view.height).events = [] := fun hnone =>
    Capture.events_normalizeTraced_of_overrun
      (Capture.overlong_iff.mp (Comparison.ofScreenshot_eq_none_iff.mp hnone))
  unfold Comparison.ofScreenshot at hsilent ⊢
  unfold compareScreenshot
  dsimp only at hsilent ⊢
  rw [Traced.bind_eq, v.tellIfAny_after fs audience _ hsilent]
  congr 1
  funext _
  cases (capture.normalizeTraced view.stride view.height).value with
  | error obstacle => exact v.screenshotStopped_eq fs audience test obstacle
  | ok buffer => exact v.comparePixels_eq_tellIfAny fs audience test buffer.pixels view reference

end Verifier

end Golden
