import Golden.Toml.Moment
import Golden.Toml.Number
import Golden.Toml.Quoted
import Golden.Toml.Table

/-!
# Golden.Toml.Parser — text to a table

A text is read statement by statement; each stands on a line of its own, except that the values in
it may run over several lines.  Every function takes the text that is left and gives back what it
read and what follows it.

Values may be nested less than `depthLimit` deep, and a key has less than `depthLimit` parts, so
nothing here can recurse without bound: `value` counts the brackets that may still be opened.  Loops
over items, pairs and statements use up at least one character in each turn, and the length of the
text is their fuel.
-/

namespace Golden.Toml

/-- The depth from which on nesting is refused. -/
def depthLimit : Nat := 80

/-! ### Keys -/

def isBareKeyChar (c : Char) : Bool := c.isAlphanum || c == '-' || c == '_'

/-- One part of a key. -/
def readKeyPart : List Char → Option (List Char × List Char)
  | '"' :: rest => readBasic false .text rest
  | '\x27' :: rest => readLiteral false rest
  | text =>
    match text.takeWhile isBareKeyChar with
    | [] => none
    | part => some (part, text.dropWhile isBareKeyChar)

/-- The parts of a key, at most `parts` of them, with the blanks around each. -/
def readKeyParts : (parts : Nat) → List Char → Option (Key × List Char)
  | 0, _ => none
  | parts + 1, text => do
    let (part, rest) ← readKeyPart (skipBlanks text)
    let part := String.ofList part
    match skipBlanks rest with
    | '.' :: rest =>
      let (key, rest) ← readKeyParts parts rest
      return (⟨part :: key.outer, key.last⟩, rest)
    | rest => return (⟨[], part⟩, rest)

def readKey (text : List Char) : Option (Key × List Char) := readKeyParts (depthLimit - 1) text

/-! ### Values -/

/-- A value without parts. -/
def readScalar (text : List Char) : Option (Scalar × List Char) :=
  match text with
  | '"' :: _ | '\x27' :: _ =>
    (readText text).map fun (chars, rest) => (.text (String.ofList chars), rest)
  | 't' :: 'r' :: 'u' :: 'e' :: rest => some (.boolean true, rest)
  | 'f' :: 'a' :: 'l' :: 's' :: 'e' :: rest => some (.boolean false, rest)
  | _ =>
    match dropMoment text with
    | some rest => some (.moment (String.ofList (text.take (text.length - rest.length))), rest)
    | none => readNumber text

/-- The items of an array, its opening bracket already read.  A comma may follow the last one. -/
def readItems (readItem : List Char → Option (Value × List Char)) :
    (fuel : Nat) → List Char → Option (List Value × List Char)
  | 0, _ => none
  | fuel + 1, text => do
    match ← skipLines false text with
    | ']' :: rest => return ([], rest)
    | text =>
      let (item, rest) ← readItem text
      match ← skipLines false rest with
      | ',' :: rest =>
        let (items, rest) ← readItems readItem fuel rest
        return (item :: items, rest)
      | ']' :: rest => return ([item], rest)
      | _ => none

/-- A key, its value, and the blanks around the value. -/
def readPair (readItem : List Char → Option (Value × List Char)) (text : List Char) :
    Option ((Key × Value) × List Char) := do
  let (key, rest) ← readKey text
  let (value, rest) ← readItem (skipBlanks (← dropChar '=' rest))
  return ((key, value), skipBlanks rest)

/-- The pairs of a table between braces, at least one, its opening brace already read. -/
def readPairs (readItem : List Char → Option (Value × List Char)) :
    (fuel : Nat) → List Char → Option (List (Key × Value) × List Char)
  | 0, _ => none
  | fuel + 1, text => do
    match ← readPair readItem text with
    | (pair, ',' :: rest) =>
      let (pairs, rest) ← readPairs readItem fuel rest
      return (pair :: pairs, rest)
    | (pair, '\x7d' :: rest) => return ([pair], rest)
    | _ => none

/-- A value within which at most `depth` brackets or braces are open at a time. -/
def readValue : (depth : Nat) → List Char → Option (Value × List Char)
  | 0, text => (readScalar text).map fun (s, rest) => (.scalar s, rest)
  | depth + 1, text =>
    match text with
    | '[' :: rest => do
      let (items, rest) ← readItems (readValue depth) (rest.length + 1) rest
      return (.array items, rest)
    | '\x7b' :: rest =>
      match skipBlanks rest with
      | '\x7d' :: rest => some (.table .braces [], rest)
      | rest => do
        let (pairs, rest) ← readPairs (readValue depth) (rest.length + 1) rest
        return (← tableOfPairs pairs, rest)
    | text => (readScalar text).map fun (s, rest) => (.scalar s, rest)

/-! ### Statements -/

/-- A statement at the start of a line, and the lines after it. -/
def readStatement : List Char → Option (Statement × List Char)
  | '[' :: '[' :: rest => do
    let (key, rest) ← readKey rest
    return (.repeatedHeading key, ← endLine (← dropChar ']' (← dropChar ']' rest)))
  | '[' :: rest => do
    let (key, rest) ← readKey rest
    return (.heading key, ← endLine (← dropChar ']' rest))
  | text => do
    let ((key, value), rest) ← readPair (readValue (depthLimit - 1)) text
    return (.entry key value, ← endLine rest)

/-- The statements of a text; lines without one are passed over. -/
def readStatements : (fuel : Nat) → List Char → Option (List Statement)
  | 0, _ => none
  | fuel + 1, text =>
    match skipToLineEnd text with
    | [] => some []
    | c :: rest =>
      match dropLineEnd (c :: rest) with
      | some rest => readStatements fuel rest
      | none => do
        let (statement, rest) ← readStatement (skipBlanks text)
        return statement :: (← readStatements fuel rest)

/-- A mark some editors put in front of a text. -/
def byteOrderMark : Char := '\uFEFF'

/-- **The table a text spells.** -/
def parse (text : String) : Option Entries := do
  let chars := match text.toList with
    | c :: rest => if c = byteOrderMark then rest else c :: rest
    | [] => []
  tableOfStatements (← readStatements (chars.length + 1) chars)

end Golden.Toml
