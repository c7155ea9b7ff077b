import Golden.Comparison.Audience
import Golden.Comparison.Output
import Golden.Comparison.Screenshot

/-!
# Golden.Verifier — comparisons under one configuration

A verifier compares outputs and screenshots of any number of tests under one configuration and tells
an audience of each while it is going on.

* The build servers hear of a mismatch of texts as soon as it is met.  The diagnostics are printed
  when all lines have been compared, and behind them, on request, both texts in full.
* They hear of a screenshot that differs before the picture of the differences is written.

What cannot be told or printed is left to the log.  Whatever is refused in a comparison ends up in
its report, and nothing else comes of it but changed files.  The one way to come to no report is to
ask for a buffer that no vector can hold; such a comparison is broken off where it stands.

The verifier itself never changes.  What one comparison leaves for the next is the files and the
audience, and of these only the files can make a difference to a report.
-/

namespace Golden

/-- The annotators that a configuration asks for. -/
def Config.annotators (c : Config) : List Annotator :=
  (if c.teamCity then [.teamCity] else []) ++ if c.gitHub then [.gitHub] else []

structure Verifier where
  config : Config
  annotators : List Annotator

/-- What a comparison leaves behind. -/
structure Outcome where
  /-- What it came to, unless it was broken off. -/
  report : Option Report
  files : Files
  audience : Audience

namespace Verifier

/-- The verifier for a configuration, with the annotators it asks for. -/
def ofConfig (c : Config) : Verifier := ⟨c, c.annotators⟩

variable (v : Verifier) (fs : Files) (audience : Audience) (test : String)

/-! ### Output -/

/-- The audience, as an alignment is told to it. -/
def listener : Listener Notice Audience :=
  ⟨.readStopped, fun audience => audience.announce v.annotators test .outputMismatch⟩

/-- Compare output with what opening the expectation gave. -/
def compareOpened (expectation : Path) (output : String) :
    Except Cause (List Delivery) → Traced Notice Outcome
  | .error cause => do
    let failure := Failure.expectationMissing expectation
    Traced.report (.openingFailed expectation cause)
    Traced.report (.expectationMissing expectation)
    let audience ← audience.announce v.annotators test .expectationMissing
    return ⟨some (.failed test .output failure.message), fs, audience⟩
  | .ok feed => do
    let (alignment, audience) ←
      Alignment.runFor (v.listener test) audience (.ofDeliveries feed) (.ofText output)
    let report := Report.ofAlignment test alignment
    Traced.report (.diffFinished report.diagnostics.length)
    let audience ← audience.print .diagnostics (Diagnostic.printedLines report.diagnostics)
    let audience ←
      if v.config.verbose then
        let expected := (fs.readText expectation textOfBytes?).toOption
        audience.print .verboseOutput (fullTexts report.passed test expected output)
      else pure audience
    Traced.report (report.outputNotice expectation)
    return ⟨some report, fs, audience⟩

/-- **Compare output with an expectation file.** -/
def compareOutput (expectation : Path) (output : String) : Traced Notice Outcome :=
  v.compareOpened fs audience test expectation output (fs.deliveries expectation)

/-! ### Screenshots -/

/-- End the comparison of a screenshot that could not be scored. -/
def screenshotFailed (failure : Failure) : Traced Notice Outcome := do
  Traced.report (.screenshotFailed test failure)
  let audience ← audience.announce v.annotators test (.screenshotError failure.message)
  return ⟨some (.failed test .screenshot failure.message), fs, audience⟩

/-- End the comparison of a screenshot that came upon an obstacle. -/
def screenshotStopped : Obstacle → Traced Notice Outcome
  | .failure failure => v.screenshotFailed fs audience test failure
  | .overrun => pure ⟨none, fs, audience⟩

/-- End the comparison of two buffers that have been scored. -/
def screenshotScored (pixels reference : Array UInt32) (view : View) (score : Score) :
    Traced Notice Outcome := do
  let report := Report.ofScore v.config test score
  if report.passed then
    Traced.report (.screenshotMatches test score.compared)
    return ⟨some report, fs, audience⟩
  else
    Traced.report (.screenshotDiffers test score.mismatched score.compared score.ratio
      v.config.maxErrorRatio)
    let audience ← audience.announce v.annotators test (.screenshotMismatch score.ratio)
    let files ← leavePicture v.config fs test pixels reference view
    return ⟨some report, files, audience⟩

/-- **Compare canonical pixels with a reference.** -/
def comparePixels (pixels : Array UInt32) (view : View) (reference : Path) :
    Traced Notice Outcome := do
  match view.check pixels with
  | .error failure => v.screenshotFailed fs audience test failure
  | .ok () =>
    match ← Reference.loadTraced fs reference view.stride view.height with
    | .error obstacle => v.screenshotStopped fs audience test obstacle
    | .ok words =>
      match Score.ofPixels pixels words view with
      | .error failure => v.screenshotFailed fs audience test failure
      | .ok score => v.screenshotScored fs audience test pixels words view score

/-- **Compare a capture with a reference.** -/
def compareScreenshot (capture : Capture) (view : View) (reference : Path) :
    Traced Notice Outcome := do
  match ← capture.normalizeTraced view.stride view.height with
  | .error obstacle => v.screenshotStopped fs audience test obstacle
  | .ok buffer => v.comparePixels fs audience test buffer.pixels view reference

end Verifier

end Golden
