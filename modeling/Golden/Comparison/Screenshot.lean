import Golden.Config
import Golden.Report.Basic
import Golden.Screenshot.DiffPicture

/-!
# Golden.Comparison.Screenshot — a framebuffer against a reference

A capture is brought into the canonical form of the compared view and scored against a recorded
reference; the test has passed if the error ratio is not above the tolerated one.  Whatever keeps
the two from being scored at all makes the test fail with an error.

A test that fails by its ratio leaves a picture of the differences, if there is a directory for it.
The picture is named after the test by the plain names in it alone (`diffPicturePath`), so it lies
under the directory whatever the test is called.
-/

namespace Golden

/-- The report of a score. -/
def Report.ofScore (c : Config) (test : String) (score : Score) : Report :=
  ⟨test, .screenshot, score.ratio ≤ c.maxErrorRatio, [], some score.ratio, none⟩

/-- The file name of a difference picture, given the last part of a test's name. -/
def diffPictureName (stem : String) : String := stem ++ "-diff.png"

/-- Where the difference picture of a test lies under a directory. -/
def diffPicturePath (directory : Path) (test : String) : Path :=
  let names := (Path.mk test).plainNames
  let parents := names.dropLast
  let stem := names.getLast?.getD "screenshot"
  (parents.foldl (fun path name => path.join ⟨name⟩) directory).join ⟨diffPictureName stem⟩

/-- Write the difference picture, if there is a directory for it; the files after that. -/
def leavePicture (c : Config) (fs : Files) (test : String) (pixels reference : Array UInt32)
    (v : View) : Traced Notice Files :=
  match c.diffDirectory with
  | none => pure fs
  | some directory =>
    let path := diffPicturePath directory test
    let attempt := writeDiffPicture fs path pixels reference v
    ⟨attempt.files,
      [match attempt.outcome with
        | .ok _ => .diffPictureWritten path
        | .error failure => .diffPictureFailed path failure]⟩

end Golden
