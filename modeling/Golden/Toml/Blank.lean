/-!
# Golden.Toml.Blank — what says nothing

Blanks, comments and line ends.  A statement ends with its line (`endLine`); between brackets,
values may be spread over any number of lines (`skipLines`).  A comment runs to the end of its line
and holds no control characters but tabs; a carriage return counts only in front of a newline.
-/

namespace Golden.Toml

def isBlank (c : Char) : Bool := c == ' ' || c == '\t'

def skipBlanks (text : List Char) : List Char := text.dropWhile isBlank

/-- Anything that may stand in a line. -/
def isPrintable (c : Char) : Bool := c == '\t' || (0x20 ≤ c.toNat && c != '\x7f')

/-- What follows a line end, if the text starts with one. -/
def dropLineEnd : List Char → Option (List Char)
  | '\n' :: rest => some rest
  | '\r' :: '\n' :: rest => some rest
  | _ => none

/-- Blanks and a comment, up to the end of the line. -/
def skipToLineEnd (text : List Char) : List Char :=
  match skipBlanks text with
  | '#' :: rest => rest.dropWhile isPrintable
  | rest => rest

/-- What follows the line, if there is nothing but blanks and a comment left on it. -/
def endLine (text : List Char) : Option (List Char) :=
  match skipToLineEnd text with
  | [] => some []
  | rest => dropLineEnd rest

/-- What follows any number of blanks, line ends and comments; a comment must end with its line. -/
def skipLines : (inComment : Bool) → List Char → Option (List Char)
  | inComment, [] => if inComment then none else some []
  | inComment, c :: rest =>
    if c = '\n' then skipLines false rest
    else if c = '\r' then if rest.head? = some '\n' then skipLines inComment rest else none
    else if inComment then if isPrintable c then skipLines true rest else none
    else if isBlank c then skipLines false rest
    else if c = '#' then skipLines true rest
    else some (c :: rest)

end Golden.Toml
