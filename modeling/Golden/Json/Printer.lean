import Golden.Json.Number
import Golden.Json.Quoted

/-!
# Golden.Json.Printer — values as indented text

Every item and member stands on a line of its own, two blanks deeper than what holds it; an empty
array or object stays on its line.  The output has no newline at its end.
-/

namespace Golden.Json

/-- A new line at the given depth. -/
def newLine (depth : Nat) : List Char := '\n' :: List.replicate (2 * depth) ' '

/-- A string as it is written.  Where there is no text, half of a surrogate pair stands for that. -/
def printString : Option String → List Char
  | some s => quote s.toList
  | none => "\"\\ud800\"".toList

mutual

/-- A value whose first line stands at `depth`. -/
def print (depth : Nat) : Json → List Char
  | .null => "null".toList
  | .bool true => "true".toList
  | .bool false => "false".toList
  | .number literal => literal
  | .string text => printString text
  | .array [] => ['[', ']']
  | .array (item :: items) =>
    '[' :: newLine (depth + 1) ++ print (depth + 1) item ++ printItems (depth + 1) items
      ++ newLine depth ++ [']']
  | .object [] => ['\x7b', '\x7d']
  | .object ((name, value) :: members) =>
    '\x7b' :: newLine (depth + 1) ++ printString name ++ ':' :: ' ' :: print (depth + 1) value
      ++ printMembers (depth + 1) members ++ newLine depth ++ ['\x7d']

/-- The items of an array behind its first. -/
def printItems (depth : Nat) : List Json → List Char
  | [] => []
  | item :: items => ',' :: newLine depth ++ print depth item ++ printItems depth items

/-- The members of an object behind its first. -/
def printMembers (depth : Nat) : List (Option String × Json) → List Char
  | [] => []
  | (name, value) :: members =>
    ',' :: newLine depth ++ printString name ++ ':' :: ' ' :: print depth value
      ++ printMembers depth members

end

def toText (j : Json) : String := String.ofList (print 0 j)

end Golden.Json
