import Golden.Decimal.Layout
import Golden.Decimal.Read

/-!
# Golden.Json.Number — numbers, spelled and valued

A spelled number is a whole part without needless zeros, then perhaps a fraction and an exponent
(`scanNumber`).

Its value is worked out from at most as many digits as fit 64 bits: those digits become a double,
and that double is multiplied or divided by one power of ten.  Both steps round, so the result can
be one unit off in its last place; digits that no longer fit only move the power.  A number too
large for a double is refused.
-/

namespace Golden.Json

/-- A spelled number taken apart. -/
structure Spelling where
  negative : Bool
  whole : List Char
  /-- The digits behind the point, if there is one. -/
  fraction : Option (List Char)
  exponent : Option Int
  deriving DecidableEq, Repr

/-- The whole part: one zero, or digits of which the first is none. -/
def scanWhole : List Char → Option (List Char × List Char)
  | '0' :: rest =>
    match rest with
    | c :: _ => if Decimal.isDigit c then none else some (['0'], rest)
    | [] => some (['0'], [])
  | text =>
    match text.takeWhile Decimal.isDigit with
    | [] => none
    | digits => some (digits, text.dropWhile Decimal.isDigit)

/-- At least one digit. -/
def scanDigits (text : List Char) : Option (List Char × List Char) :=
  match text.takeWhile Decimal.isDigit with
  | [] => none
  | digits => some (digits, text.dropWhile Decimal.isDigit)

/-- The digits of an exponent behind its mark and sign. -/
def scanExponentDigits (negative : Bool) (text : List Char) : Option (Int × List Char) :=
  (scanDigits text).map fun (digits, rest) =>
    let size : Int := Decimal.valueOfDigits digits
    (if negative then -size else size, rest)

def scanFraction : List Char → Option (Option (List Char) × List Char)
  | '.' :: rest => (scanDigits rest).map fun (digits, later) => (some digits, later)
  | rest => some (none, rest)

def scanExponent : List Char → Option (Option Int × List Char)
  | 'e' :: rest | 'E' :: rest =>
    let scanned := match rest with
      | '+' :: digits => scanExponentDigits false digits
      | '-' :: digits => scanExponentDigits true digits
      | digits => scanExponentDigits false digits
    scanned.map fun (e, later) => (some e, later)
  | rest => some (none, rest)

/-- A number at the start of a text, and what follows it. -/
def scanSpelling (text : List Char) : Option (Spelling × List Char) := do
  let (negative, rest) := match text with
    | '-' :: rest => (true, rest)
    | rest => (false, rest)
  let (whole, rest) ← scanWhole rest
  let (fraction, rest) ← scanFraction rest
  let (exponent, rest) ← scanExponent rest
  return (⟨negative, whole, fraction, exponent⟩, rest)

/-- A number at the start of a text as it is spelled, and what follows it. -/
def scanNumber (text : List Char) : Option (List Char × List Char) :=
  (scanSpelling text).map fun (_, rest) => (text.take (text.length - rest.length), rest)

/-! ### The value -/

/-- The largest whole number that digits are gathered into. -/
def significandLimit : Nat := UInt64.size - 1

/-- Digits gathered into a whole number as far as they fit, and how many were left over. -/
def gather : Nat → List Char → Nat × List Char
  | value, [] => (value, [])
  | value, c :: rest =>
    let next := value * 10 + (c.toNat - '0'.toNat)
    if significandLimit < next then (value, c :: rest) else gather next rest

/-- The double nearest to a power of ten. -/
def powerOfTen (k : Nat) : Float := Decimal.ofScientific false 1 k

/-- The largest power of ten that a double can hold. -/
def greatestPower : Nat := 308

/-- Divide by a power of ten, by the greatest one as often as it takes. -/
def divideByPower : Nat → Float → Nat → Float
  | 0, value, k => value / powerOfTen k
  | steps + 1, value, k =>
    if k ≤ greatestPower then value / powerOfTen k
    else if value == 0 then value
    else divideByPower steps (value / powerOfTen greatestPower) (k - greatestPower)

/-- A significand times a power of ten; nothing when it is too large. -/
def scale? (significand : Nat) (power : Int) : Option Float :=
  let value := Float.ofNat significand
  match power with
  | .ofNat k =>
    if k ≤ greatestPower then
      let scaled := value * powerOfTen k
      if scaled.isInf then none else some scaled
    else if value == 0 then some value
    else none
  | .negSucc k => some (divideByPower (k / greatestPower + 1) value (k + 1))

/-- The value of a spelled number. -/
def Spelling.value? (s : Spelling) : Option Float :=
  let (whole, unread) := gather 0 s.whole
  let magnitude :=
    match s.fraction, s.exponent with
    | none, none => if unread = [] then some (Float.ofNat whole) else scale? whole unread.length
    | none, some e => scale? whole (unread.length + e)
    | some places, e =>
      let (significand, ignored) := gather whole places
      scale? significand (unread.length - (places.length - ignored.length : Nat) + e.getD 0)
  magnitude.map fun x => if s.negative then -x else x

/-- The value of a number from its spelling. -/
def numberValue? (literal : List Char) : Option Float :=
  match scanSpelling literal with
  | some (s, []) => s.value?
  | _ => none

/-- Numbers are written positionally from five places behind the point up to sixteen digits in front
of it, always with a point unless they have an exponent, and of two equally near ones the even one
stands. -/
def numberLayout : Decimal.Layout := ⟨some (-5, 15), true, .toEven⟩

/-- The spelling of a double; what is not a finite number has none. -/
def numberLiteral? (x : Float) : Option (List Char) :=
  match Decimal.classify x with
  | .finite negative mantissa exponent => some (numberLayout.finite negative mantissa exponent)
  | _ => none

end Golden.Json
