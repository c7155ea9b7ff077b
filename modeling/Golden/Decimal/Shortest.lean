import Golden.Decimal.Binary64

/-!
# Golden.Decimal.Shortest — the fewest digits that read back

Every real number closer to a double than to any other reads back as that double; the midpoints to
its neighbours do so exactly when its mantissa is even.  `shortest` looks for the coarsest decimal
grid that has a point in this interval — one significant digit, then two, up to seventeen, which
always suffice — and takes the point nearest to the double.  If a grid has any point in the
interval, then one of the double's two neighbours on that grid is in it, so only those two are
tried.  Where both are in it and equally near, whoever asks says by a `Tie` which one to take.
-/

namespace Golden.Decimal

/-- The number `digits · 10 ^ power`. -/
structure Scientific where
  digits : Nat
  power : Int
  deriving DecidableEq, Repr

/-- The reals that read back as a double, as whole numbers over a common denominator. -/
structure Interval where
  low : Nat
  value : Nat
  high : Nat
  den : Nat
  closed : Bool

/-- The interval around `mantissa · 2 ^ exponent`.  Below the least mantissa of a binade the
neighbouring double is only half as far away. -/
def intervalOf (mantissa : Nat) (exponent : Int) : Interval :=
  let below := if mantissa = hiddenBit ∧ leastExponent < exponent then 1 else 2
  let (num, den) := scaled 1 2 (exponent - 2)
  ⟨(4 * mantissa - below) * num, 4 * mantissa * num, (4 * mantissa + 2) * num, den,
    mantissa % 2 = 0⟩

namespace Interval

/-- Whether `point · num / den` lies in the interval. -/
def contains (i : Interval) (point num den : Nat) : Bool :=
  let lhs := i.low * den
  let mid := point * num * i.den
  let rhs := i.high * den
  if i.closed then lhs ≤ mid && mid ≤ rhs else lhs < mid && mid < rhs

/-- The point of the grid of step `10 ^ power` that lies in the interval nearest to its value. -/
def onGrid (i : Interval) (tie : Tie) (power : Int) : Option Nat :=
  let (num, den) := scaled 1 10 power
  let below := i.value * den / (num * i.den)
  match i.contains below num den, i.contains (below + 1) num den with
  | true, true => some (roundRatio tie (i.value * den) (num * i.den))
  | true, false => some below
  | false, true => some (below + 1)
  | false, false => none

/-- The first of the grids of step `10 ^ power`, `10 ^ (power - 1)`, … with a point in the interval;
`tries` bounds how many are looked at. -/
def firstGrid (i : Interval) (tie : Tie) (power : Int) : Nat → Scientific
  | 0 => ⟨(i.onGrid tie power).getD 0, power⟩
  | tries + 1 =>
    match i.onGrid tie power with
    | some point => ⟨point, power⟩
    | none => i.firstGrid tie (power - 1) tries

end Interval

/-- A power of ten that a double stays below, by no more than three. -/
def powerAbove (mantissa : Nat) (exponent : Int) : Int :=
  (exponent + mantissa.log2 + 1) * 30103 / 100000 + 2

/-- Seventeen digits always suffice, and the search starts at most three grids too coarse. -/
def gridCount : Nat := 20

/-- The shortest digits that read back as the positive double `mantissa · 2 ^ exponent`, and of
those the nearest. -/
def shortest (tie : Tie) (mantissa : Nat) (exponent : Int) : Scientific :=
  (intervalOf mantissa exponent).firstGrid tie (powerAbove mantissa exponent) gridCount

end Golden.Decimal
