import Golden.Pixel.Buffer

/-!
# Golden.Screenshot.Score — how far two pixel buffers differ

A `View` says how a run of canonical words is to be read: `height` rows of `stride` words, of which
the leftmost `width` are compared.  Two pixels differ when their colours do; alpha never matters,
and a difference counts once however large it is.

`View.check` is the one place where sizes are judged, in a fixed order: the number of words the view
takes must be addressable, the words must be there, and the compared columns must lie in the stride.
Everything behind it looks up words by position and cannot miss (`View.index_lt`).
-/

namespace Golden

/-- How a run of words is read as a picture. -/
structure View where
  stride : UInt32
  width : UInt32
  height : UInt32
  deriving DecidableEq, Repr

namespace View

/-- How many words the view takes. -/
def words (v : View) : Nat := v.stride.toNat * v.height.toNat

/-- The position of the pixel in column `x` of row `y`. -/
def index (v : View) (x y : Nat) : Nat := y * v.stride.toNat + x

/-- What is wrong with reading `available` words under this view. -/
def problem? (v : View) (available : Nat) : Option BufferProblem :=
  if addressLimit ≤ v.words then some (.viewTooLarge v.stride v.height)
  else if available < v.words then some (.tooFewPixels available v.stride v.height)
  else if v.stride < v.width then some (.widthExceedsStride v.width v.stride)
  else none

def check (v : View) (pixels : Array UInt32) : Except Failure Unit :=
  match v.problem? pixels.size with
  | some problem => .error (.buffer problem)
  | none => .ok ()

/-- A compared pixel lies within the words the view takes. -/
theorem index_lt {v : View} {x y : Nat} (hw : v.width.toNat ≤ v.stride.toNat)
    (hx : x < v.width.toNat) (hy : y < v.height.toNat) : v.index x y < v.words := by
  calc v.index x y < y * v.stride.toNat + v.stride.toNat := by simp only [index]; omega
    _ = v.stride.toNat * (y + 1) := by rw [Nat.mul_succ, Nat.mul_comm]
    _ ≤ v.words := Nat.mul_le_mul_left _ hy

/-- Whether the colours at position `i` of two buffers differ. -/
def differsAt (pixels reference : Array UInt32) (i : Nat) : Bool :=
  Pixel.colour (pixels.getD i 0) != Pixel.colour (reference.getD i 0)

/-- The compared words of row `y`. -/
def row (v : View) (pixels : Array UInt32) (y : Nat) : List UInt32 :=
  slice pixels (y * v.stride.toNat) v.width.toNat

/-- How many compared words of row `y` differ in their colours. -/
def rowMismatches (v : View) (pixels reference : Array UInt32) (y : Nat) : Nat :=
  ((v.row pixels y).zip (v.row reference y)).countP fun (actual, expected) =>
    Pixel.colour actual != Pixel.colour expected

end View

/-- The pixel counts behind an error ratio. -/
structure Score where
  mismatched : Nat
  compared : Nat
  deriving DecidableEq, Repr

namespace Score

/-- The fraction of compared pixels that differ; zero when nothing was compared. -/
def ratio (s : Score) : Float :=
  if s.compared = 0 then 0 else Float.ofNat s.mismatched / Float.ofNat s.compared

/-- The ratio reported when there is none. -/
def sentinel : Float := -1

/-- A ratio, or the sentinel in its place. -/
def ratioOrSentinel : Except Failure Float → Float
  | .ok ratio => ratio
  | .error _ => sentinel

/-- The score with row `y` counted in. -/
def addRow (v : View) (pixels reference : Array UInt32) (s : Score) (y : Nat) : Score :=
  ⟨s.mismatched + v.rowMismatches pixels reference y, s.compared + v.width.toNat⟩

/-- Count the differing pixels of two buffers under a view, row by row. -/
def count (pixels reference : Array UInt32) (v : View) : Score :=
  (rowRange v.width.toNat v.height.toNat).foldl (addRow v pixels reference) ⟨0, 0⟩

/-- **Score two buffers**, each of which must cover the view. -/
def ofPixels (pixels reference : Array UInt32) (v : View) : Except Failure Score := do
  v.check pixels
  v.check reference
  return count pixels reference v

end Score

end Golden
