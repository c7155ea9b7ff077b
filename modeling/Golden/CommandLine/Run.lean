import Golden.BootFile
import Golden.CommandLine.Complaint
import Golden.CommandLine.Invocation
import Golden.Report.Json
import Golden.Screenshot.Recording
import Golden.Verifier

/-!
# Golden.CommandLine.Run — commands carried out

A run starts from its surroundings — files, standard input, a little of the environment — and ends
with an exit code, two texts and the files it leaves.

* A passed comparison and a recorded reference end with 0, a failed comparison and a complaint with
  1, and words that make no command with 2.
* As a rule, standard output carries the annotations and then what the comparison printed, and the
  outcome is told in one line on standard error.
* For a machine, standard output carries the report and nothing else; the annotations move to
  standard error.
* A run that asks for more memory than a vector can hold is broken off, with a code of its own.  What
  is said about that on standard error is not said by the program.
-/

namespace Golden.CommandLine

/-- What a run finds. -/
structure Surroundings where
  files : Files
  input : Except Cause (List UInt8)
  /-- The configuration that the environment names. -/
  configVariable : Option String
  /-- Whether the run is part of a GitHub Actions workflow. -/
  underActions : Bool

/-- How a run ends. -/
structure Ending where
  exit : UInt32
  output : String
  messages : String
  files : Files

/-- The program's name and version. -/
def programName : String := "outcheck"

def versionNumber : String := "0.1.0"

/-- The version of the program or of one of its commands. -/
def versionText : Option String → String
  | none => programName ++ " " ++ versionNumber ++ "\n"
  | some command => programName ++ "-" ++ command ++ " " ++ versionNumber ++ "\n"

def usageText : String :=
  "Usage: " ++ programName ++ " [OPTIONS] <COMMAND>\n\nCommands: "
    ++ ", ".intercalate (commands.map (·.name)) ++ "\n"

namespace Refusal

def ending (files : Files) : Refusal → Ending
  | .misuse => ⟨2, "", usageText, files⟩
  | .version command => ⟨0, versionText command, "", files⟩
  | .help => ⟨0, usageText, "", files⟩

end Refusal

namespace Complaint

def ending (files : Files) (c : Complaint) : Ending := ⟨1, "", c.text, files⟩

end Complaint

/-- A report in one line. -/
def reportLine (r : Report) : String :=
  (if r.passed then "✓ " else "✗ ") ++ r.test ++ ": " ++ r.summary ++ "\n"

/-- How a run ends that is broken off, after what was put out by then. -/
def brokenOff (output messages : String) (files : Files) : Ending := ⟨101, output, messages, files⟩

/-- How a run ends that came to a comparison. -/
def endingOf (json : Bool) (outcome : Outcome) : Ending :=
  let annotations := outcome.audience.annotations.text
  let output := outcome.audience.output.text
  match outcome.report with
  | none =>
    if json then brokenOff "" annotations outcome.files
    else brokenOff (annotations ++ output) "" outcome.files
  | some report =>
    let exit := if report.passed then 0 else 1
    if json then ⟨exit, report.toText ++ "\n", annotations, outcome.files⟩
    else ⟨exit, annotations ++ output, reportLine report, outcome.files⟩

/-- Whether a path stands for standard input. -/
def isStandardInput (p : Path) : Bool := p.components = [.plain "-"]

namespace Surroundings

/-- The output to compare. -/
def capturedOutput (s : Surroundings) (p : Path) : Except Complaint String := do
  let bytes ←
    if isStandardInput p then s.input.mapError (.duringAccess "reading output from stdin")
    else (s.files.read p).mapError (.duringAccess ("reading output " ++ p.text))
  return textOfBytes bytes

end Surroundings

namespace CaptureSource

/-- Read the dump. -/
def load (source : CaptureSource) (fs : Files) : Except Complaint Capture := do
  let data ← (fs.read source.path).mapError (.duringAccess ("reading capture " ++ source.path.text))
  return {
    stride := source.stride
    width := source.width.getD source.stride
    height := source.height
    tag := source.format.tag
    rowOrder := if source.bottomUp then .bottomUp else .topDown
    data := data.toArray }

def view (source : CaptureSource) : View :=
  ⟨source.viewStride, source.viewWidth, source.viewHeight⟩

end CaptureSource

namespace Invocation

/-- The configuration of a run: from its file, then the environment, then the options. -/
def configuration (i : Invocation) (s : Surroundings) : Except Complaint Config := do
  let c ← match i.config with
    | none => .ok Config.default
    | some p => (Config.load s.files p).mapError (.during ("loading config " ++ p.text))
  let c := c.underActions s.underActions
  return { c with verbose := c.verbose || i.verbose, teamCity := c.teamCity || i.teamCity }

/-- Compare printed output. -/
def runText (json : Bool) (c : Config) (s : Surroundings) (boot output : Path)
    (expectation : Option Path) (test : Option String) : Except Complaint Ending := do
  let captured ← s.capturedOutput output
  let outcome := (Verifier.ofConfig c).compareOutput s.files .attentive
    (test.getD (BootFile.testName boot)) (expectation.getD (BootFile.expectation boot)) captured
  return endingOf json outcome.value

/-- Compare a framebuffer dump. -/
def runScreenshot (json : Bool) (c : Config) (s : Surroundings) (boot : Path)
    (source : CaptureSource) (reference : Option Path) (maxErrorRatio : Option Float)
    (diffDirectory : Option Path) (test : Option String) : Except Complaint Ending := do
  let c := { c with
    maxErrorRatio := maxErrorRatio.getD c.maxErrorRatio
    diffDirectory := diffDirectory.or c.diffDirectory }
  c.check.mapError .ofFailure
  let capture ← source.load s.files
  let outcome := (Verifier.ofConfig c).compareScreenshot s.files .attentive
    (test.getD (BootFile.testName boot)) capture source.view
    (reference.getD (BootFile.reference boot))
  return endingOf json outcome.value

/-- Record a framebuffer dump. -/
def runBless (json : Bool) (s : Surroundings) (boot : Path) (source : CaptureSource)
    (reference : Option Path) : Except Complaint Ending := do
  let reference := reference.getD (BootFile.reference boot)
  let capture ← source.load s.files
  let recording := (Recording.ofCapture s.files reference capture source.view).value
  return match recording.problem with
    | some (.normalizing .overrun) => brokenOff "" "" recording.files
    | some (.normalizing (.failure failure)) =>
      (Complaint.during ("normalizing capture " ++ source.path.text) failure).ending recording.files
    | some (.writing failure) =>
      (Complaint.during ("writing reference " ++ reference.text) failure).ending recording.files
    | none =>
      ⟨0, "", if json then "" else "ℹ Reference written to " ++ reference.text ++ "\n",
        recording.files⟩

/-- Carry out a command. -/
def run (i : Invocation) (s : Surroundings) : Except Complaint Ending := do
  let c ← i.configuration s
  match i.command with
  | .text boot output expectation test => runText i.json c s boot output expectation test
  | .screenshot boot capture reference maxErrorRatio diffDirectory test =>
    runScreenshot i.json c s boot capture reference maxErrorRatio diffDirectory test
  | .bless boot capture reference => runBless i.json s boot capture reference

end Invocation

/-- **Carry out what the words of a command line ask for.** -/
def run (words : List String) (s : Surroundings) : Ending :=
  match Invocation.ofWords words s.configVariable with
  | .error refusal => refusal.ending s.files
  | .ok invocation =>
    match invocation.run s with
    | .error complaint => complaint.ending s.files
    | .ok ending => ending

end Golden.CommandLine
