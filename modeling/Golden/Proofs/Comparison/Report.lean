import Golden.Proofs.Comparison.Told

/-!
# Golden.Proofs.Comparison.Report — what a screenshot comparison reports

Pixels are compared with a reference in two places.  `Reference.compare` is asked for an error ratio
and nothing else; a verifier also tells its log, leaves a picture of the differences and reports.
Both go through the same checks in the same order, so the report is that of the outcome
`Reference.compare` comes to (`Comparison.report_ofPixels`): its ratio against what the
configuration tolerates, or its failure in words.  A capture is the same behind one more step that
can fail (`Comparison.report_ofScreenshot_eq`).  An overrun has no report in either of them.
-/

namespace Golden

namespace Reference

/-- A problem that keeps a reference from being loaded is passed on. -/
theorem value_loadTraced (fs : Files) (p : Path) (stride height : UInt32) :
    (loadTraced fs p stride height).value
      = (load fs p stride height).mapError (LoadProblem.obstacle p stride height) := by
  rw [loadTraced]
  cases load fs p stride height <;> rfl

/-- Once the reference is loaded and both buffers are scored, the outcome is the ratio. -/
theorem compare_of_score {fs : Files} {p : Path} {pixels words : Array UInt32} {v : View}
    {score : Score} (hcheck : v.check pixels = .ok ())
    (hload : load fs p v.stride v.height = .ok words)
    (hscore : Score.ofPixels pixels words v = .ok score) :
    compare fs p pixels v = .ok score.ratio := by
  rw [compare, hcheck, value_loadTraced, hload]
  show Score.ratio <$> (Score.ofPixels pixels words v).mapError Obstacle.failure = _
  rw [hscore]
  rfl

end Reference

namespace Comparison

/-- The report of a screenshot comparison by the outcome it came to. -/
def ratioReport (c : Config) (test : String) : Except Obstacle Float → Option Report
  | .ok ratio => some ⟨test, .screenshot, ratio ≤ c.maxErrorRatio, [], some ratio, none⟩
  | .error (.failure failure) => some (.failed test .screenshot failure.message)
  | .error .overrun => none

variable (c : Config) (fs : Files) (test : String) (pixels : Array UInt32) (v : View) (p : Path)

/-- Putting notices in front of what there is to tell changes nothing but that. -/
theorem report_after (notices : List Notice) (comparison : Option Comparison) :
    (comparison.map (after notices)).map (·.report) = comparison.map (·.report) := by
  cases comparison <;> rfl

/-- An obstacle is all that is reported. -/
theorem report_ofObstacle (obstacle : Obstacle) :
    (ofObstacle fs test obstacle).map (·.report) = ratioReport c test (.error obstacle) := by
  cases obstacle <;> rfl

/-- **The report is that of the outcome of `Reference.compare`.** -/
theorem report_ofPixels :
    (ofPixels c fs test pixels v p).map (·.report)
      = ratioReport c test (Reference.compare fs p pixels v) := by
  rw [ofPixels, Reference.compare]
  cases v.check pixels with
  | error failure => rfl
  | ok checked =>
      dsimp only [bind, Except.bind, Except.mapError]
      rw [report_after]
      cases (Reference.loadTraced fs p v.stride v.height).value with
      | error obstacle => exact report_ofObstacle c fs test obstacle
      | ok words =>
          dsimp only
          cases Score.ofPixels pixels words v with
          | error failure => rfl
          | ok score => exact congrArg some (report_ofScore c fs test pixels words v score)

theorem report_ofScreenshot_eq (capture : Capture) :
    (ofScreenshot c fs test capture v p).map (·.report)
      = ratioReport c test
          (capture.normalize v.stride v.height >>= fun buffer =>
            Reference.compare fs p buffer.pixels v) := by
  rw [ofScreenshot, Capture.normalizeTraced, report_after]
  cases capture.normalize v.stride v.height with
  | error obstacle => exact report_ofObstacle c fs test obstacle
  | ok buffer => exact report_ofPixels c fs test buffer.pixels v p

end Comparison

end Golden
