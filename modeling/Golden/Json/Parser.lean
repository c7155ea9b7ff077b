import Golden.Json.Number
import Golden.Json.Quoted

/-!
# Golden.Json.Parser — text to values

The grammar of JSON, as it is usually read: one value, white space allowed around every token and
behind the last, nothing else.  Each function takes the text that is left and gives back a value and
what follows it.

Every nested call is made behind at least one character, so a text can never nest deeper than it is
long: the length of the text is all the fuel `parse` needs.
-/

namespace Golden.Json

def isBlank (c : Char) : Bool := c == ' ' || c == '\t' || c == '\n' || c == '\r'

def skipBlanks (text : List Char) : List Char := text.dropWhile isBlank

/-- What follows a word, if the text starts with it. -/
def dropWord (word text : List Char) : Option (List Char) :=
  if word.isPrefixOf text then some (text.drop word.length) else none

mutual

/-- A value at the start of a text, blanks in front of it skipped. -/
def value : Nat → List Char → Option (Json × List Char)
  | 0, _ => none
  | fuel + 1, text =>
    match skipBlanks text with
    | [] => none
    | '"' :: rest => (readString rest).map fun (s, later) => (.string s, later)
    | '[' :: rest =>
      match skipBlanks rest with
      | ']' :: later => some (.array [], later)
      | _ => do
        let (first, later) ← value fuel rest
        let (others, later) ← itemsAfter fuel later
        return (.array (first :: others), later)
    | '\x7b' :: rest =>
      match skipBlanks rest with
      | '\x7d' :: later => some (.object [], later)
      | _ => do
        let (first, later) ← member fuel rest
        let (others, later) ← membersAfter fuel later
        return (.object (first :: others), later)
    | 'n' :: rest => (dropWord "ull".toList rest).map fun later => (.null, later)
    | 't' :: rest => (dropWord "rue".toList rest).map fun later => (.bool true, later)
    | 'f' :: rest => (dropWord "alse".toList rest).map fun later => (.bool false, later)
    | rest => (scanNumber rest).map fun (literal, later) => (.number literal, later)

/-- The rest of an array behind an item. -/
def itemsAfter : Nat → List Char → Option (List Json × List Char)
  | 0, _ => none
  | fuel + 1, text =>
    match skipBlanks text with
    | ']' :: later => some ([], later)
    | ',' :: rest => do
      let (item, later) ← value fuel rest
      let (others, later) ← itemsAfter fuel later
      return (item :: others, later)
    | _ => none

/-- A name, a colon and a value. -/
def member : Nat → List Char → Option ((Option String × Json) × List Char)
  | 0, _ => none
  | fuel + 1, text =>
    match skipBlanks text with
    | '"' :: rest => do
      let (name, later) ← readString rest
      match skipBlanks later with
      | ':' :: rest => do
        let (content, later) ← value fuel rest
        return ((name, content), later)
      | _ => none
    | _ => none

/-- The rest of an object behind a member. -/
def membersAfter : Nat → List Char → Option (List (Option String × Json) × List Char)
  | 0, _ => none
  | fuel + 1, text =>
    match skipBlanks text with
    | '\x7d' :: later => some ([], later)
    | ',' :: rest => do
      let (first, later) ← member fuel rest
      let (others, later) ← membersAfter fuel later
      return (first :: others, later)
    | _ => none

end

/-- The value a whole text spells. -/
def parse (text : String) : Option Json := do
  let chars := text.toList
  let (j, rest) ← value (chars.length + 1) chars
  if skipBlanks rest = [] then some j else none

end Golden.Json
