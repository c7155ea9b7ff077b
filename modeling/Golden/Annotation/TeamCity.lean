import Golden.Annotation.Event
import Golden.Decimal.Layout

/-!
# Golden.Annotation.TeamCity — service messages

A service message is one line, `##teamcity[kind name='…' message='…']`.  Inside a quoted value the
characters that could end the value, the message or the line are written behind a `|`, and so is `|`
itself.
-/

namespace Golden.TeamCity

/-- The character that stands behind `|` for one that must not stand alone. -/
def mark? : Char → Option Char
  | '|' => some '|'
  | '\'' => some '\''
  | '\n' => some 'n'
  | '\r' => some 'r'
  | '[' => some '['
  | ']' => some ']'
  | _ => none

def escape : List Char → List Char
  | [] => []
  | c :: rest =>
    match mark? c with
    | some m => '|' :: m :: escape rest
    | none => c :: escape rest

def escapeText (text : String) : String := String.ofList (escape text.toList)

/-- A percentage of pixels, as both build servers are told it. -/
def percentage (ratio : Float) : String := Decimal.fixed 2 (ratio * 100) ++ "%"

/-- What stands between the brackets of the message for an event. -/
def body (test : String) (event : Event) : String :=
  let name := escapeText test
  match event with
  | .outputMismatch =>
    "testFailed name='" ++ name ++ "' message='Output different from expected file'"
  | .expectationMissing => "testIgnored name='" ++ name ++ "' message='Expects file missing'"
  | .screenshotMismatch ratio =>
    "testFailed name='" ++ name ++ "' message='Screenshot different from expected ("
      ++ percentage ratio ++ " pixels differ)'"
  | .screenshotError message =>
    "testFailed name='" ++ name ++ "' message='" ++ escapeText message ++ "'"

/-- The service message for an event, with its newline. -/
def line (test : String) (event : Event) : String :=
  "##teamcity[" ++ body test event ++ "]\n"

end Golden.TeamCity
