import Golden.Decimal.Read
import Golden.Path
import Golden.Pixel.Format

/-!
# Golden.CommandLine.Options — options and operands

The words of a command line are read from left to right.  A word is an option by its name
(`--name`), a bundle of options by their letters (`-abc`), or an operand; behind a `--` all words
are operands.  An option may take a value: joined to it, by `=` or directly behind its letter, or as
the next word, which then must look like an operand.

Every option may be given once, and its value must be of the right kind.  The first word that does
not fit stops the reading, and so do the options that ask for nothing but a version or help.
-/

namespace Golden.CommandLine

inductive ValueKind
  | text
  | path
  | count
  | ratio
  | format
  deriving DecidableEq, Repr

inductive OptionValue
  | present
  | text (s : String)
  | path (p : Path)
  | count (n : UInt32)
  | ratio (x : Float)
  | format (f : PixelFormat)

/-- What an option does. -/
inductive OptionRole
  | flag
  | value (kind : ValueKind)
  | version
  | help
  deriving DecidableEq, Repr

structure OptionSpec where
  name : String
  letter : Option Char
  role : OptionRole
  deriving DecidableEq, Repr

/-- Why the words of a command line are not read to their end. -/
inductive Stop
  | misuse
  | version
  | help
  deriving DecidableEq, Repr

/-! ### Values -/

/-- A whole number of 32 bits. -/
def count? (text : String) : Option UInt32 := do
  let n ← Decimal.integer? text.toList
  if 0 ≤ n ∧ n < 0x100000000 then some (UInt32.ofNat n.toNat) else none

/-- A path, which must not be empty. -/
def path? (text : String) : Option Path := if text.isEmpty then none else some ⟨text⟩

namespace ValueKind

/-- The value a text gives. -/
def read? : ValueKind → String → Option OptionValue
  | .text, s => some (.text s)
  | .path, s => (path? s).map .path
  | .count, s => (count? s).map .count
  | .ratio, s => (Decimal.number? s).map .ratio
  | .format, s => (PixelFormat.ofName? s).map .format

end ValueKind

/-! ### What has been given -/

/-- The options given so far, and the operand. -/
structure Given where
  options : List (String × OptionValue)
  operand : Option Path

namespace Given

def empty : Given := ⟨[], none⟩

/-- Add an option; a text is there exactly if the option takes one. -/
def addOption (g : Given) (spec : OptionSpec) (text : Option String) : Except Stop Given := do
  let value ← match spec.role, text with
    | .version, none => .error .version
    | .help, none => .error .help
    | .flag, none => .ok .present
    | .value kind, some text =>
      match kind.read? text with
      | some value => .ok value
      | none => .error .misuse
    | _, _ => .error .misuse
  match g.options.lookup spec.name with
  | some _ => .error .misuse
  | none => return { g with options := (spec.name, value) :: g.options }

/-- Add the operand; there is at most one, and it is a path. -/
def addOperand (g : Given) (text : String) : Except Stop Given :=
  match g.operand, path? text with
  | none, some p => .ok { g with operand := some p }
  | _, _ => .error .misuse

def flag (g : Given) (name : String) : Bool := (g.options.lookup name).isSome

def text? (g : Given) (name : String) : Option String :=
  match g.options.lookup name with
  | some (.text s) => some s
  | _ => none

def path? (g : Given) (name : String) : Option Path :=
  match g.options.lookup name with
  | some (.path p) => some p
  | _ => none

def count? (g : Given) (name : String) : Option UInt32 :=
  match g.options.lookup name with
  | some (.count n) => some n
  | _ => none

def ratio? (g : Given) (name : String) : Option Float :=
  match g.options.lookup name with
  | some (.ratio x) => some x
  | _ => none

def format? (g : Given) (name : String) : Option PixelFormat :=
  match g.options.lookup name with
  | some (.format f) => some f
  | _ => none

end Given

/-! ### Words -/

inductive Word
  /-- `--`, behind which there are operands only. -/
  | endOfOptions
  /-- An option by its name, perhaps with a value behind `=`. -/
  | named (name : String) (value : Option String)
  /-- Options by their letters. -/
  | bundle (letters : List Char)
  | operand (text : String)
  deriving DecidableEq, Repr

namespace Word

def ofText (text : String) : Word :=
  match text.toList with
  | ['-', '-'] => .endOfOptions
  | '-' :: '-' :: rest =>
    let name := String.ofList (rest.takeWhile (· != '='))
    match rest.dropWhile (· != '=') with
    | [] => .named name none
    | _ :: value => .named name (some (String.ofList value))
  | '-' :: letter :: letters => .bundle (letter :: letters)
  | _ => .operand text

end Word

/-- Read a bundle.  If its last option still waits for its value, that option comes back too. -/
def readBundle (specs : List OptionSpec) :
    Given → List Char → Except Stop (Given × Option OptionSpec)
  | g, [] => .ok (g, none)
  | g, letter :: letters =>
    match specs.find? (·.letter == some letter) with
    | none => .error .misuse
    | some spec =>
      match spec.role, letters with
      | .value _, [] => .ok (g, some spec)
      | .value _, '=' :: value => do return (← g.addOption spec (some (String.ofList value)), none)
      | .value _, value => do return (← g.addOption spec (some (String.ofList value)), none)
      | _, letters => do readBundle specs (← g.addOption spec none) letters

/-- Read one option or bundle; an option that waits for its value comes back too. -/
def readOption (specs : List OptionSpec) (g : Given) :
    Word → Except Stop (Given × Option OptionSpec)
  | .named name value =>
    match specs.find? (·.name == name) with
    | none => .error .misuse
    | some spec =>
      match spec.role, value with
      | .value _, none => .ok (g, some spec)
      | _, value => do return (← g.addOption spec value, none)
  | .bundle letters => readBundle specs g letters
  | .endOfOptions | .operand _ => .error .misuse

/-- Read options up to the first operand, which comes back with all words behind it. -/
def readLeading (specs : List OptionSpec) : Given → List String → Except Stop (Given × List String)
  | g, [] => .ok (g, [])
  | g, text :: rest =>
    match Word.ofText text with
    | .operand _ => .ok (g, text :: rest)
    | word => do
      let (g, waiting) ← readOption specs g word
      match waiting with
      | none => readLeading specs g rest
      | some spec =>
        match rest with
        | [] => .error .misuse
        | value :: rest =>
          match Word.ofText value with
          | .operand value => readLeading specs (← g.addOption spec (some value)) rest
          | _ => .error .misuse

/-- Read options and operands in any order. -/
def readAll (specs : List OptionSpec) : Given → List String → Except Stop Given
  | g, [] => .ok g
  | g, text :: rest =>
    match Word.ofText text with
    | .endOfOptions => rest.foldlM Given.addOperand g
    | .operand operand => do readAll specs (← g.addOperand operand) rest
    | word => do
      let (g, waiting) ← readOption specs g word
      match waiting with
      | none => readAll specs g rest
      | some spec =>
        match rest with
        | [] => .error .misuse
        | value :: rest =>
          match Word.ofText value with
          | .operand value => readAll specs (← g.addOption spec (some value)) rest
          | _ => .error .misuse

end Golden.CommandLine
