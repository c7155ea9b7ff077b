import Golden.Decimal.Binary64

/-!
# Golden.Decimal.Read — decimal text to doubles

`ofScientific` is the double nearest to `digits · 10 ^ power`.  Powers far outside the range of
doubles are settled by the number of digits alone, so no power of ten is computed that the result
does not need.

`number?` reads a number as command lines and configuration files spell it: digits with an optional
point somewhere among them and an optional exponent, or one of the words for infinity and
not-a-number, in any case of letters.
-/

namespace Golden.Decimal

def isDigit (c : Char) : Bool := '0' ≤ c && c ≤ '9'

/-- The number a sequence of digits spells. -/
def valueOfDigits (digits : List Char) : Nat :=
  digits.foldl (fun value c => value * 10 + (c.toNat - '0'.toNat)) 0

/-- The double nearest to `± digits · 10 ^ power`. -/
def ofScientific (negative : Bool) (digits : Nat) (power : Int) : Float :=
  let top := power + (Nat.toDigits 10 digits).length
  if digits = 0 ∨ top < -330 then ofRatio negative 0 1
  else if 320 < top then ofRatio negative (Nat.pow 10 320) 1
  else
    let (num, den) := scaled digits 10 power
    ofRatio negative num den

/-- A whole number without a sign: at least one digit. -/
def natural? (digits : List Char) : Option Nat :=
  if digits ≠ [] ∧ digits.all isDigit then some (valueOfDigits digits) else none

/-- A whole number with an optional sign. -/
def integer? : List Char → Option Int
  | '-' :: digits => (natural? digits).map fun n => -n
  | '+' :: digits => (natural? digits).map fun n => n
  | digits => (natural? digits).map fun n => n

/-- A number without its sign: digits on at least one side of an optional point, then perhaps an
exponent. -/
def magnitude? (negative : Bool) (text : List Char) : Option Float := do
  let whole := text.takeWhile isDigit
  let rest := text.dropWhile isDigit
  let (places, rest) := match rest with
    | '.' :: rest => (rest.takeWhile isDigit, rest.dropWhile isDigit)
    | rest => ([], rest)
  if whole = [] ∧ places = [] then none
  let power ← match rest with
    | [] => some 0
    | mark :: digits => if mark = 'e' ∨ mark = 'E' then integer? digits else none
  return ofScientific negative (valueOfDigits (whole ++ places)) (power - places.length)

def notANumber : Float := Float.ofBits 0x7FF8000000000000

def infinity (negative : Bool) : Float := ofRatio negative (Nat.pow 10 320) 1

/-- A number with an optional sign, or a word for what is not finite. -/
def number? (text : String) : Option Float :=
  let (negative, body) := match text.toList with
    | '-' :: rest => (true, rest)
    | '+' :: rest => (false, rest)
    | rest => (false, rest)
  match String.ofList (body.map Char.toLower) with
  | "nan" => some notANumber
  | "inf" | "infinity" => some (infinity negative)
  | _ => magnitude? negative body

end Golden.Decimal
