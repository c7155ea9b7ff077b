import Golden.Decimal.Layout
import Golden.Decimal.Read
import Golden.Text.Hex
import Golden.Toml.Basic

/-!
# Golden.Toml.Number — integers and floats

A number is written in decimal with an optional sign, or, without a sign, to the base sixteen, eight
or two behind `0x`, `0o` or `0b`.  Single underscores may stand between digits.  A fraction or an
exponent makes it a float; `inf` and `nan` are floats too.  A decimal number does not start with a
needless zero: where one is followed by another digit, the number ends behind the zero.

An integer must fit 64 bits with a sign, and a float must not be too large for a double unless it is
negative: it is then minus infinity.
-/

namespace Golden.Toml

open Golden.Decimal (isDigit valueOfDigits)

/-- Digits with single underscores between them, behind a first digit. -/
def moreDigits (isOne : Char → Bool) : List Char → Option (List Char × List Char)
  | [] => some ([], [])
  | c :: rest =>
    if isOne c then (moreDigits isOne rest).map fun (digits, later) => (c :: digits, later)
    else if c = '_' then if rest.head?.any isOne then moreDigits isOne rest else none
    else some ([], c :: rest)

/-- At least one digit. -/
def someDigits (isOne : Char → Bool) : List Char → Option (List Char × List Char)
  | [] => none
  | c :: rest =>
    if isOne c then (moreDigits isOne rest).map fun (digits, later) => (c :: digits, later)
    else none

/-- The digits of a whole number. -/
def wholeDigits : List Char → Option (List Char × List Char)
  | '0' :: rest => some (['0'], rest)
  | text => someDigits isDigit text

/-- Whether a character is a digit to the given base, at most sixteen. -/
def isDigitOf (base : Nat) (c : Char) : Bool := (Text.Hex.value? c).any (· < base)

/-- The number that digits to a base spell. -/
def valueToBase (base : Nat) (digits : List Char) : Nat :=
  digits.foldl (fun value c => value * base + (Text.Hex.value? c).getD 0) 0

/-- An integer, if it fits. -/
def integer? (n : Int) : Option Scalar :=
  if -0x8000000000000000 ≤ n ∧ n < 0x8000000000000000 then some (.integer n) else none

/-- A float, if it is not too large. -/
def float? (x : Float) : Option Scalar :=
  if x == Decimal.infinity false then none else some (.float x)

/-- A sign in front of a number: whether it is negative, and what follows. -/
def takeSign : List Char → Bool × List Char
  | '+' :: rest => (false, rest)
  | '-' :: rest => (true, rest)
  | rest => (false, rest)

def signed (negative : Bool) (n : Nat) : Int := if negative then -n else n

/-- An exponent, its mark already read. -/
def readExponent (text : List Char) : Option (Int × List Char) := do
  let (negative, rest) := takeSign text
  let (digits, rest) ← someDigits isDigit rest
  return (signed negative (valueOfDigits digits), rest)

def isExponentMark (c : Char) : Bool := c == 'e' || c == 'E'

/-- The rest of a number behind its whole digits. -/
def readTail (negative : Bool) (whole : List Char) : List Char → Option (Scalar × List Char)
  | [] => (integer? (signed negative (valueOfDigits whole))).map (·, [])
  | c :: rest => do
    if c = '.' then
      let (places, rest) ← someDigits isDigit rest
      let (exponent, rest) ←
        if rest.head?.any isExponentMark then readExponent (rest.drop 1) else some (0, rest)
      let x :=
        Decimal.ofScientific negative (valueOfDigits (whole ++ places)) (exponent - places.length)
      return (← float? x, rest)
    else if isExponentMark c then
      let (exponent, rest) ← readExponent rest
      return (← float? (Decimal.ofScientific negative (valueOfDigits whole) exponent), rest)
    else
      return (← integer? (signed negative (valueOfDigits whole)), c :: rest)

/-- A decimal number, infinity or not-a-number. -/
def readDecimal (text : List Char) : Option (Scalar × List Char) :=
  match takeSign text with
  | (negative, 'i' :: 'n' :: 'f' :: rest) => some (.float (Decimal.infinity negative), rest)
  | (_, 'n' :: 'a' :: 'n' :: rest) => some (.float Decimal.notANumber, rest)
  | (negative, rest) => do
    let (whole, rest) ← wholeDigits rest
    readTail negative whole rest

/-- An integer to another base, its mark already read. -/
def readToBase (base : Nat) (text : List Char) : Option (Scalar × List Char) := do
  let (digits, rest) ← someDigits (isDigitOf base) text
  return (← integer? (valueToBase base digits), rest)

/-- A number of any kind, and what follows it. -/
def readNumber : List Char → Option (Scalar × List Char)
  | '0' :: 'x' :: rest => readToBase 16 rest
  | '0' :: 'o' :: rest => readToBase 8 rest
  | '0' :: 'b' :: rest => readToBase 2 rest
  | text => readDecimal text

/-! ### Writing -/

/-- The layout of floats: always written out, a whole number with its point, and of two equally near
numbers the greater one. -/
def floatLayout : Decimal.Layout := ⟨none, true, .up⟩

def writeFloat (x : Float) : List Char :=
  match Decimal.classify x with
  | .nan => ['n', 'a', 'n']
  | .infinite negative => Decimal.unbounded negative
  | .finite negative mantissa exponent => floatLayout.finite negative mantissa exponent

def writeInteger (n : Int) : List Char :=
  if n < 0 then '-' :: Decimal.digitsOf n.natAbs else Decimal.digitsOf n.natAbs

/-- An integer as a double, the nearest one. -/
def floatOfInteger (n : Int) : Float := Decimal.ofRatio (n < 0) n.natAbs 1

/-- The number a value gives; integers count. -/
def Value.float? : Value → Option Float
  | .scalar (.float x) => some x
  | .scalar (.integer n) => some (floatOfInteger n)
  | _ => none

end Golden.Toml
