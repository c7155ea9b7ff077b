import Golden.Decimal.Shortest

/-!
# Golden.Decimal.Layout — where the point goes

The digits of a number are one thing, how a format sets them is another.  A `Layout` is what a
format decides: which magnitudes are written positionally, whether a whole number keeps a `.0`, and
which of two equally short and equally near numbers stands for a double halfway between them.  The
formats themselves — reports, configuration files, messages — each state their layout where they
write their numbers.

`fixed` is the other way to set a number: a given count of places, the exact value rounded to it, a
tie going to the even neighbour.
-/

namespace Golden.Decimal

def digitsOf (n : Nat) : List Char := Nat.toDigits 10 n

/-- What a format decides about its numbers. -/
structure Layout where
  /-- The exponents of a first digit, least and greatest, for which a number is written out
  positionally; all of them if there is no range. -/
  positional : Option (Int × Int)
  /-- Whether a whole number is written with `.0` behind it. -/
  keepsPoint : Bool
  /-- The choice between two shortest numbers that are equally near. -/
  tie : Tie
  deriving DecidableEq, Repr

namespace Layout

/-- Digits written out, the first of them worth `10 ^ exponent`. -/
def spellOut (layout : Layout) (digits : List Char) (exponent : Int) : List Char :=
  match exponent with
  | .negSucc zeros => '0' :: '.' :: List.replicate zeros '0' ++ digits
  | .ofNat k =>
    let whole := digits.take (k + 1) ++ List.replicate (k + 1 - digits.length) '0'
    match digits.drop (k + 1) with
    | [] => if layout.keepsPoint then whole ++ ['.', '0'] else whole
    | places => whole ++ '.' :: places

/-- Digits in scientific notation: one digit, the others behind a point, and a signed exponent. -/
def scientific (digits : List Char) (exponent : Int) : List Char :=
  let mantissa :=
    match digits with
    | first :: second :: rest => first :: '.' :: second :: rest
    | digits => digits
  let mark := if exponent < 0 then ['e', '-'] else ['e', '+']
  mantissa ++ mark ++ digitsOf exponent.natAbs

/-- A finite number: its sign, `mantissa` and `exponent` to the base two. -/
def finite (layout : Layout) (negative : Bool) (mantissa : Nat) (exponent : Int) : List Char :=
  let sign := if negative then ['-'] else []
  if mantissa = 0 then sign ++ layout.spellOut ['0'] 0
  else
    let number := shortest layout.tie mantissa exponent
    let all := digitsOf number.digits
    let digits := (all.reverse.dropWhile (· == '0')).reverse
    let first := number.power + (all.length - 1 : Nat)
    let inRange := match layout.positional with
      | none => true
      | some (least, greatest) => least ≤ first && first ≤ greatest
    sign ++ if inRange then layout.spellOut digits first else scientific digits first

end Layout

/-- The words for what is not a number of finite size. -/
def unbounded (negative : Bool) : List Char :=
  if negative then ['-', 'i', 'n', 'f'] else ['i', 'n', 'f']

/-- The layout of numbers in messages: always written out, a whole number without a point, and of
two equally near numbers the greater one. -/
def plain : Layout := ⟨none, false, .up⟩

/-- A number as messages show it. -/
def display (x : Float) : String :=
  String.ofList <| match classify x with
    | .nan => ['N', 'a', 'N']
    | .infinite negative => unbounded negative
    | .finite negative mantissa exponent => plain.finite negative mantissa exponent

/-- A number with exactly `places` digits behind the point. -/
def fixed (places : Nat) (x : Float) : String :=
  String.ofList <| match classify x with
    | .nan => ['N', 'a', 'N']
    | .infinite negative => unbounded negative
    | .finite negative mantissa exponent =>
      let (num, den) := scaled mantissa 2 exponent
      let units := digitsOf (roundRatio .toEven (num * Nat.pow 10 places) den)
      let padded := List.replicate (places + 1 - units.length) '0' ++ units
      let split := padded.length - places
      let sign := if negative then ['-'] else []
      sign ++ padded.take split ++ (if places = 0 then [] else '.' :: padded.drop split)

end Golden.Decimal
