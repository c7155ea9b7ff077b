import Golden.Failure

/-!
# Golden.Notice — what a run tells its log

Everything worth a line in the log is one constructor of `Notice`, with the facts it is about;
`level` and `message` give the line.  Notices are collected in the order in which they happen and
never decide anything.
-/

namespace Golden

inductive Level
  | debug
  | info
  | warn
  deriving DecidableEq, Repr

def Level.text : Level → String
  | .debug => "DEBUG"
  | .info => "INFO"
  | .warn => "WARN"

/-- Who writes something a run wants to tell. -/
inductive Channel
  | teamCity
  | gitHub
  | diagnostics
  | verboseOutput
  deriving DecidableEq, Repr

/-- A channel as its failures name it. -/
def Channel.name : Channel → String
  | .teamCity => "TeamCity annotation"
  | .gitHub => "GitHub Actions annotation"
  | .diagnostics => "diagnostics"
  | .verboseOutput => "verbose output"

inductive Notice
  | readStopped (cause : Cause)
  | diffFinished (count : Nat)
  | normalized (stride height : UInt32) (format : PixelFormat) (toStride toHeight : UInt32)
      (rows : Nat)
  | openingFailed (path : Path) (cause : Cause)
  | readingFailed (path : Path) (cause : Cause)
  | expectationMissing (path : Path)
  | referenceWritten (stride height : UInt32) (path : Path)
  | outputMatches (test : String) (path : Path)
  | outputDiffers (test : String) (path : Path) (count : Nat)
  | screenshotMatches (test : String) (pixels : Nat)
  | screenshotDiffers (test : String) (mismatched compared : Nat) (ratio allowed : Float)
  | diffPictureWritten (path : Path)
  | diffPictureFailed (path : Path) (failure : Failure)
  | screenshotFailed (test : String) (failure : Failure)
  | writingFailed (channel : Channel) (cause : Cause)

namespace Notice

def level : Notice → Level
  | .diffFinished _ | .normalized .. | .openingFailed .. | .readingFailed .. | .outputMatches ..
  | .screenshotMatches .. => .debug
  | .referenceWritten .. | .outputDiffers .. | .diffPictureWritten _ => .info
  | .readStopped _ | .expectationMissing _ | .screenshotDiffers .. | .diffPictureFailed ..
  | .screenshotFailed .. | .writingFailed .. => .warn

def message : Notice → String
  | .readStopped cause => "Stopped reading lines after I/O error: " ++ cause.message
  | .diffFinished count => "Line diff finished with " ++ toString count ++ " diagnostic(s)"
  | .normalized stride height format toStride toHeight rows =>
    "Normalized " ++ sizeText stride height ++ " " ++ format.name ++ " capture into "
      ++ sizeText toStride toHeight ++ " (" ++ toString rows ++ " rows copied)"
  | .openingFailed path cause => "Opening " ++ path.text ++ " failed: " ++ cause.message
  | .readingFailed path cause => "Reading " ++ path.text ++ " failed: " ++ cause.message
  | .expectationMissing path => (Failure.expectationMissing path).message
  | .referenceWritten stride height path =>
    "Wrote " ++ sizeText stride height ++ " reference to " ++ path.text
  | .outputMatches test path => "Output of " ++ test ++ " matches " ++ path.text
  | .outputDiffers test path count =>
    "Output of " ++ test ++ " differs from " ++ path.text ++ " (" ++ toString count
      ++ " diagnostic line(s))"
  | .screenshotMatches test pixels =>
    "Screenshot of " ++ test ++ " matches (" ++ toString pixels ++ " pixels)"
  | .screenshotDiffers test mismatched compared ratio allowed =>
    "Screenshot of " ++ test ++ " differs in " ++ toString mismatched ++ " of " ++ toString compared
      ++ " pixels (ratio " ++ Decimal.fixed 4 ratio ++ ", allowed " ++ Decimal.fixed 4 allowed
      ++ ")"
  | .diffPictureWritten path => "Diff image written to " ++ path.text
  | .diffPictureFailed path failure =>
    "Failed to write diff image " ++ path.text ++ ": " ++ failure.message
  | .screenshotFailed test failure =>
    "Screenshot comparison for " ++ test ++ " failed: " ++ failure.message
  | .writingFailed channel cause => "Failed to write " ++ channel.name ++ ": " ++ cause.message

def text (n : Notice) : String := n.level.text ++ " " ++ n.message

end Notice

end Golden
