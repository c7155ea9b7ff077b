/-!
# Golden.Decimal.Binary64 — double-precision numbers as exact ratios

A finite double is a whole number times a power of two.  `classify` takes one apart into sign,
mantissa and exponent; `ofRatio` goes the other way and rounds an exact ratio of whole numbers to
the nearest double, a tie going to the even mantissa.  All the arithmetic in between is on whole
numbers, so neither direction loses anything it does not mean to lose.
-/

namespace Golden.Decimal

/-- A double taken apart: `± mantissa · 2 ^ exponent`, or one of the values that is not a number of
that form. -/
inductive Class
  | nan
  | infinite (negative : Bool)
  | finite (negative : Bool) (mantissa : Nat) (exponent : Int)
  deriving DecidableEq, Repr

def fractionBits : Nat := 52

/-- The leading bit of a mantissa, which is not stored. -/
def hiddenBit : Nat := Nat.pow 2 fractionBits

/-- The exponent of the smallest positive double. -/
def leastExponent : Int := -1074

def classify (x : Float) : Class :=
  let bits := x.toBits.toNat
  let negative := bits / Nat.pow 2 63 == 1
  let biased := bits / hiddenBit % Nat.pow 2 11
  let fraction := bits % hiddenBit
  if biased = 2047 then if fraction = 0 then .infinite negative else .nan
  else if biased = 0 then .finite negative fraction leastExponent
  else .finite negative (fraction + hiddenBit) (leastExponent + (biased - 1 : Nat))

/-- Whole numbers in the ratio `m · b ^ e`. -/
def scaled (m b : Nat) (e : Int) : Nat × Nat :=
  match e with
  | .ofNat k => (m * Nat.pow b k, 1)
  | .negSucc k => (m, Nat.pow b (k + 1))

/-- Which of two neighbouring whole numbers a ratio halfway between them is rounded to. -/
inductive Tie
  | toEven
  | up
  deriving DecidableEq, Repr

/-- The choice between `q` and `q + 1`. -/
def Tie.choose : Tie → Nat → Nat
  | .toEven, q => if q % 2 = 0 then q else q + 1
  | .up, q => q + 1

/-- The whole number nearest to a ratio. -/
def roundRatio (tie : Tie) (num den : Nat) : Nat :=
  let q := num / den
  let twice := 2 * (num % den)
  if twice < den then q else if den < twice then q + 1 else tie.choose q

/-- The exponent of the leading bit of a positive ratio. -/
def leadingExponent (num den : Nat) : Int :=
  let guess : Int := (num.log2 : Int) - den.log2
  -- the ratio of the leading bits is off by less than a factor of two
  let (scaleNum, scaleDen) := scaled 1 2 guess
  if num * scaleDen < den * scaleNum then guess - 1 else guess

/-- The bit pattern of the double nearest to a ratio; past the largest double it is infinity's. -/
def bitsOfRatio (num den : Nat) : Nat :=
  if num = 0 then 0
  else
    let exponent := max (leadingExponent num den - fractionBits) leastExponent
    let (scaleNum, scaleDen) := scaled 1 2 exponent
    let mantissa := roundRatio .toEven (num * scaleDen) (den * scaleNum)
    -- a mantissa with its leading bit set counts that bit as one step of the exponent
    let bits := (exponent - leastExponent).toNat * hiddenBit + mantissa
    min bits (2047 * hiddenBit)

/-- The double nearest to a ratio. -/
def ofRatio (negative : Bool) (num den : Nat) : Float :=
  Float.ofBits (UInt64.ofNat (bitsOfRatio num den + if negative then Nat.pow 2 63 else 0))

end Golden.Decimal
