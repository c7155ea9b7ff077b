import Golden.CommandLine.Options

/-!
# Golden.CommandLine.Invocation — what a command line asks for

There are three commands: `text` compares printed output, `screenshot` compares a framebuffer dump,
and `bless` records one as the new reference.  Some options belong to every command and may also
stand in front of it; where an option with a value is given in both places, the one behind the
command counts.
-/

namespace Golden.CommandLine

/-- A framebuffer dump and how to read it. -/
structure CaptureSource where
  path : Path
  format : PixelFormat
  stride : UInt32
  /-- The visible width; the whole stride if it is not given. -/
  width : Option UInt32
  height : UInt32
  bottomUp : Bool
  /-- The size of the compared view. -/
  viewStride : UInt32
  viewWidth : UInt32
  viewHeight : UInt32

inductive Command
  | text (boot output : Path) (expectation : Option Path) (test : Option String)
  | screenshot (boot : Path) (capture : CaptureSource) (reference : Option Path)
      (maxErrorRatio : Option Float) (diffDirectory : Option Path) (test : Option String)
  | bless (boot : Path) (capture : CaptureSource) (reference : Option Path)

structure Invocation where
  config : Option Path
  verbose : Bool
  teamCity : Bool
  json : Bool
  command : Command

/-- Why nothing is carried out. -/
inductive Refusal
  | misuse
  /-- Somebody only wants to know the version of a command, or of the program. -/
  | version (command : Option String)
  | help
  deriving DecidableEq, Repr

/-! ### The options -/

def commonSpecs : List OptionSpec :=
  [⟨"config", none, .value .path⟩, ⟨"verbose", some 'v', .flag⟩, ⟨"teamcity", none, .flag⟩,
    ⟨"json", none, .flag⟩, ⟨"help", some 'h', .help⟩, ⟨"version", some 'V', .version⟩]

def textSpecs : List OptionSpec :=
  [⟨"output", some 'o', .value .path⟩, ⟨"expected", none, .value .path⟩,
    ⟨"name", none, .value .text⟩]

def captureSpecs : List OptionSpec :=
  [⟨"capture", none, .value .path⟩, ⟨"format", none, .value .format⟩,
    ⟨"capture-stride", none, .value .count⟩, ⟨"capture-width", none, .value .count⟩,
    ⟨"capture-height", none, .value .count⟩, ⟨"bottom-up", none, .flag⟩,
    ⟨"stride", none, .value .count⟩, ⟨"width", none, .value .count⟩,
    ⟨"height", none, .value .count⟩]

def blessSpecs : List OptionSpec := captureSpecs ++ [⟨"reference", none, .value .path⟩]

def screenshotSpecs : List OptionSpec :=
  blessSpecs ++ [⟨"max-error-ratio", none, .value .ratio⟩, ⟨"diff-dir", none, .value .path⟩,
    ⟨"name", none, .value .text⟩]

/-! ### From options to commands -/

/-- The dump that options describe; only its path has no default. -/
def CaptureSource.ofGiven? (g : Given) : Option CaptureSource := do
  return {
    path := ← g.path? "capture"
    format := (g.format? "format").getD .rgba8888
    stride := (g.count? "capture-stride").getD 512
    width := g.count? "capture-width"
    height := (g.count? "capture-height").getD 272
    bottomUp := g.flag "bottom-up"
    viewStride := (g.count? "stride").getD 512
    viewWidth := (g.count? "width").getD 480
    viewHeight := (g.count? "height").getD 272 }

def textOfGiven? (g : Given) : Option Command := do
  return .text (← g.operand) ((g.path? "output").getD ⟨"-"⟩) (g.path? "expected") (g.text? "name")

def screenshotOfGiven? (g : Given) : Option Command := do
  return .screenshot (← g.operand) (← CaptureSource.ofGiven? g) (g.path? "reference")
    (g.ratio? "max-error-ratio") (g.path? "diff-dir") (g.text? "name")

def blessOfGiven? (g : Given) : Option Command := do
  return .bless (← g.operand) (← CaptureSource.ofGiven? g) (g.path? "reference")

/-- A command: its options, and what they amount to; nothing if a required one is missing. -/
structure CommandSpec where
  name : String
  specs : List OptionSpec
  ofGiven? : Given → Option Command

def commands : List CommandSpec :=
  [⟨"text", textSpecs, textOfGiven?⟩, ⟨"screenshot", screenshotSpecs, screenshotOfGiven?⟩,
    ⟨"bless", blessSpecs, blessOfGiven?⟩]

namespace Refusal

/-- What a stopped reading means under a command, or in front of any. -/
def ofStop (command : Option String) : Stop → Refusal
  | .misuse => .misuse
  | .version => .version command
  | .help => .help

end Refusal

namespace Invocation

/-- The path of the configuration.  The environment's is looked at unless the option is given both
in front of the command and behind it, and then it must be a path. -/
def configPath (front behind : Given) (fromEnvironment : Option String) :
    Except Refusal (Option Path) :=
  match behind.path? "config", front.path? "config", fromEnvironment with
  | some p, some _, _ => .ok (some p)
  | some p, none, none | none, some p, none => .ok (some p)
  | none, none, none => .ok none
  | given, given', some text =>
    match path? text with
    | some p => .ok ((given.or given').or (some p))
    | none => .error .misuse

/-- The invocation that options in front of a command and behind it make. -/
def ofGiven (spec : CommandSpec) (front behind : Given) (fromEnvironment : Option String) :
    Except Refusal Invocation := do
  let config ← configPath front behind fromEnvironment
  match spec.ofGiven? behind with
  | none => .error .misuse
  | some command =>
    return {
      config
      verbose := front.flag "verbose" || behind.flag "verbose"
      teamCity := front.flag "teamcity" || behind.flag "teamcity"
      json := front.flag "json" || behind.flag "json"
      command }

/-- **What the words of a command line ask for.** -/
def ofWords (words : List String) (fromEnvironment : Option String) :
    Except Refusal Invocation := do
  let (front, rest) ← (readLeading commonSpecs .empty words).mapError (.ofStop none)
  match rest with
  | [] => .error .misuse
  | name :: words =>
    match commands.find? (·.name == name) with
    | some spec =>
      let behind ← (readAll (spec.specs ++ commonSpecs) .empty words).mapError (.ofStop (some name))
      ofGiven spec front behind fromEnvironment
    | none =>
      if name = "help" ∧ (words = [] ∨ words ∈ ("help" :: commands.map (·.name)).map ([·])) then
        .error .help
      else .error .misuse

end Invocation

end Golden.CommandLine
