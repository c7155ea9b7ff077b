import Golden.Text.Hex
import Golden.Toml.Blank

/-!
# Golden.Toml.Quoted — texts between quotes

There are four ways to quote a text.  A **basic** one stands between double quotes and may escape
characters, a **literal** one stands between single quotes and may not; either can stand between
triple quotes and then run over several lines.

## Reading

A text in single quotes ends at the first quote.  One in triple quotes ends where three stand in a
row, and up to two more quotes right behind them still belong to the text.  A newline right behind
the opening triple quotes is not part of the text, and every line end counts as a newline, however
it was spelled.  In a basic text, a backslash at the end of a line swallows all blanks and line ends
that follow it.

## Writing

Between double quotes everything is escaped that has to be, between single ones nothing can be.
`Style.of` takes the first way in which the text needs no escaping but for its tabs, double quotes
before single ones and one line before several; if there is none, double quotes it is.
-/

namespace Golden.Toml

/-- The two marks a text can stand between. -/
inductive Mark
  | double
  | single
  deriving DecidableEq, Repr

def Mark.char : Mark → Char
  | .double => '"'
  | .single => '\x27'

/-! ### Reading -/

/-- What closes a text, when its mark has just been read: the marks that still belong to the text,
and what follows the closing ones. -/
def closing? (mark : Mark) (tripled : Bool) (rest : List Char) :
    Option (List Char × List Char) :=
  if !tripled then some ([], rest)
  else if rest.take 2 = [mark.char, mark.char] then
    let extra := ((rest.drop 2).take 2).takeWhile (· == mark.char)
    some (extra, rest.drop (2 + extra.length))
  else none

/-- Put a character in front of a text that was read. -/
def prepend (c : Char) (read : Option (List Char × List Char)) : Option (List Char × List Char) :=
  read.map fun (text, later) => (c :: text, later)

/-- A literal text whose opening marks have been read. -/
def readLiteral (tripled : Bool) : List Char → Option (List Char × List Char)
  | [] => none
  | c :: rest =>
    if c = Mark.single.char then
      match closing? .single tripled rest with
      | some ending => some ending
      | none => prepend c (readLiteral tripled rest)
    else if isPrintable c || (tripled && c == '\n') then prepend c (readLiteral tripled rest)
    else if tripled && c == '\r' && rest.head? == some '\n' then readLiteral tripled rest
    else none

/-- Where the reading of a basic text stands. -/
inductive Position
  | text
  /-- Behind a backslash. -/
  | escape
  /-- Inside a number: the digits still to come and the value so far. -/
  | number (owed value : Nat)
  /-- Behind a backslash and blanks that must be the last of their line. -/
  | lineTail
  /-- Behind a swallowed line end. -/
  | swallowing
  deriving DecidableEq, Repr

/-- The character a letter behind a backslash stands for. -/
def ofEscape? : Char → Option Char
  | 'b' => some '\x08'
  | 't' => some '\x09'
  | 'n' => some '\x0a'
  | 'f' => some '\x0c'
  | 'r' => some '\x0d'
  | '"' => some '"'
  | '\\' => some '\\'
  | _ => none

/-- The character with a given number, if there is one. -/
def charOfNumber? (n : Nat) : Option Char := if n.isValidChar then some (Char.ofNat n) else none

/-- A basic text whose opening marks have been read. -/
def readBasic (tripled : Bool) : Position → List Char → Option (List Char × List Char)
  | _, [] => none
  | .escape, c :: rest =>
    if c = 'u' then readBasic tripled (.number 4 0) rest
    else if c = 'U' then readBasic tripled (.number 8 0) rest
    else
      match ofEscape? c with
      | some escaped => prepend escaped (readBasic tripled .text rest)
      | none =>
        if tripled && isBlank c then readBasic tripled .lineTail rest
        else if tripled && c == '\n' then readBasic tripled .swallowing rest
        else if tripled && c == '\r' && rest.head? == some '\n' then
          readBasic tripled .lineTail rest
        else none
  | .number owed value, c :: rest =>
    match Text.Hex.value? c with
    | none => none
    | some digit =>
      let value := value * 16 + digit
      if owed ≤ 1 then
        match charOfNumber? value with
        | none => none
        | some numbered => prepend numbered (readBasic tripled .text rest)
      else readBasic tripled (.number (owed - 1) value) rest
  | .lineTail, c :: rest =>
    if isBlank c then readBasic tripled .lineTail rest
    else if c = '\n' then readBasic tripled .swallowing rest
    else if c = '\r' ∧ rest.head? = some '\n' then readBasic tripled .lineTail rest
    else none
  | position, c :: rest =>
    if position = .swallowing ∧ (isBlank c ∨ c = '\n') then readBasic tripled .swallowing rest
    else if c = Mark.double.char then
      match closing? .double tripled rest with
      | some ending => some ending
      | none => prepend c (readBasic tripled .text rest)
    else if c = '\\' then readBasic tripled .escape rest
    else if isPrintable c || (tripled && c == '\n') then prepend c (readBasic tripled .text rest)
    else if tripled && c == '\r' && rest.head? == some '\n' then readBasic tripled position rest
    else none

/-- Pass over a line end right behind opening triple marks. -/
def skipFirstLineEnd (text : List Char) : List Char := (dropLineEnd text).getD text

/-- A text in any of the four ways, and what follows it. -/
def readText : List Char → Option (List Char × List Char)
  | '"' :: '"' :: '"' :: rest => readBasic true .text (skipFirstLineEnd rest)
  | '"' :: rest => readBasic false .text rest
  | '\x27' :: '\x27' :: '\x27' :: rest => readLiteral true (skipFirstLineEnd rest)
  | '\x27' :: rest => readLiteral false rest
  | _ => none

/-! ### Writing -/

/-- How a text is written. -/
structure Style where
  mark : Mark
  tripled : Bool
  deriving DecidableEq, Repr

/-- A control character that no text may show as it is.  A literal text shows tabs, and a newline
makes it one of several lines. -/
def isControl (c : Char) : Bool :=
  c != '\n' && c != '\t' && (c.toNat < 0x20 || c == '\x7f')

/-- The longest run of a character, given the length of the run that leads up to the text. -/
def longestRun (mark : Char) : Nat → List Char → Nat
  | run, [] => run
  | run, c :: rest =>
    if c = mark then longestRun mark (run + 1) rest else max run (longestRun mark 0 rest)

/-- The way in which a text is written. -/
def Style.of (text : List Char) : Style :=
  let doubles := longestRun Mark.double.char 0 text
  let singles := longestRun Mark.single.char 0 text
  let lines := text.contains '\n'
  let backslash := text.contains '\\'
  if text.any isControl then ⟨.double, lines⟩
  else if !backslash && doubles = 0 && !lines then ⟨.double, false⟩
  else if singles = 0 && !lines then ⟨.single, false⟩
  else if !backslash && doubles ≤ 2 then ⟨.double, true⟩
  else if singles ≤ 2 then ⟨.single, true⟩
  else ⟨.double, lines⟩

/-- The letter behind a backslash for the characters that have one. -/
def escape? : Char → Option Char
  | '\x08' => some 'b'
  | '\x09' => some 't'
  | '\x0a' => some 'n'
  | '\x0c' => some 'f'
  | '\x0d' => some 'r'
  | '"' => some '"'
  | '\\' => some '\\'
  | _ => none

def escapeChar (c : Char) : List Char :=
  match escape? c with
  | some letter => ['\\', letter]
  | none =>
    if isControl c then
      ['\\', 'u', '0', '0', Text.Hex.upper (c.toNat / 16), Text.Hex.upper (c.toNat % 16)]
    else [c]

/-- A text of several lines with its escapes.  Newlines stay, and of every three marks in a row only
the third is escaped; `run` counts the marks in front of the text that were left as they are. -/
def escapeLines : (run : Nat) → List Char → List Char
  | _, [] => []
  | run, c :: rest =>
    if c = '\n' then c :: escapeLines 0 rest
    else if c = Mark.double.char ∧ run < 2 then c :: escapeLines (run + 1) rest
    else escapeChar c ++ escapeLines 0 rest

/-- The marks a text stands between. -/
def Style.marks (style : Style) : List Char :=
  List.replicate (if style.tripled then 3 else 1) style.mark.char

/-- What stands between the marks.  A text of several lines starts on a line of its own. -/
def Style.body (style : Style) (text : List Char) : List Char :=
  let shown :=
    match style.mark with
    | .single => text
    | .double => if style.tripled then escapeLines 0 text else text.flatMap escapeChar
  if style.tripled && text.contains '\n' then '\n' :: shown else shown

/-- A text between its quotes. -/
def write (text : List Char) : List Char :=
  let style := Style.of text
  style.marks ++ style.body text ++ style.marks

end Golden.Toml
