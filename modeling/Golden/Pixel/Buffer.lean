import Golden.Notice
import Golden.Traced

/-!
# Golden.Pixel.Buffer — captures and their canonical form

A `Capture` is a framebuffer as it was handed over: rows of a certain stride, stored in one of the
pixel formats, the top row or the bottom row first, of which only the leftmost columns are visible.
A `PixelBuffer` holds canonical words row by row from the top.

`Capture.normalize` turns one into the other at any requested size, row by row.  Where the capture
is smaller, or a column is not visible, the buffer stays zero; where it is larger, the rest is left
out.  A bottom-up capture is read from its last row, so cropping keeps the top of the picture in
both orders.

The size of a capture is checked before any pixel is looked at, in whole numbers that cannot
overflow: a size that does not fit 64 bits is refused as such, a smaller one is compared with the
bytes at hand.

The size of a buffer is not checked by anybody.  A vector of words has its own limit, which lies
below what can be addressed (`vectorLimit`); asking for a larger one is an `Obstacle.overrun`.  Below
that limit there is taken to be memory enough.
-/

namespace Golden

/-- Sizes from here on cannot be addressed. -/
def addressLimit : Nat := UInt64.size

/-- The most bytes that one vector can hold. -/
def vectorLimit : Nat := 0x7FFFFFFFFFFFFFFF

theorem vectorLimit_lt : vectorLimit < addressLimit := by decide

/-- Which row of a capture is stored first. -/
inductive RowOrder
  | topDown
  | bottomUp
  deriving DecidableEq, Repr

/-- A framebuffer as it was captured. -/
structure Capture where
  /-- Pixel columns stored for each row. -/
  stride : UInt32
  /-- Visible columns. -/
  width : UInt32
  height : UInt32
  tag : UInt32
  rowOrder : RowOrder
  data : Array UInt8
  deriving DecidableEq, Repr

/-- Canonical words, row by row from the top. -/
structure PixelBuffer where
  stride : UInt32
  height : UInt32
  pixels : Array UInt32
  deriving DecidableEq, Repr

namespace PixelBuffer

/-- The buffer of zero words. -/
def blank (stride height : UInt32) : PixelBuffer :=
  ⟨stride, height, Array.replicate (stride.toNat * height.toNat) 0⟩

/-- Make the buffer of zero words. -/
def zeroed (stride height : UInt32) : Except Obstacle PixelBuffer :=
  if vectorLimit < 4 * (stride.toNat * height.toNat) then .error .overrun
  else .ok (blank stride height)

/-- The word in column `x` of row `y`, if the buffer has one. -/
def get? (b : PixelBuffer) (x y : UInt32) : Option UInt32 :=
  if x < b.stride ∧ y < b.height then b.pixels[y.toNat * b.stride.toNat + x.toNat]? else none

end PixelBuffer

/-- `count` entries of an array from position `start` on. -/
def slice {α : Type} (entries : Array α) (start count : Nat) : List α :=
  (entries.extract start (start + count)).toList

/-- Words put over those that stand from position `start` on. -/
def overwrite (words : Array UInt32) (start : Nat) : List UInt32 → Array UInt32
  | [] => words
  | word :: rest => overwrite (words.setIfInBounds start word) (start + 1) rest

/-- The rows to go through when `columns` of each are wanted: none if no column is. -/
def rowRange (columns rows : Nat) : List Nat := if columns = 0 then [] else List.range rows

namespace Capture

/-- The capture's format, if its tag names one. -/
def format? (c : Capture) : Option PixelFormat := PixelFormat.ofTag? c.tag

/-- How many bytes the capture's geometry takes in a format. -/
def bytesNeeded (c : Capture) (format : PixelFormat) : Nat :=
  c.stride.toNat * c.height.toNat * format.bytesPerPixel

/-- The stored row that shows as row `y` from the top. -/
def storedRow (c : Capture) (y : Nat) : Nat :=
  match c.rowOrder with
  | .topDown => y
  | .bottomUp => c.height.toNat - 1 - y

/-- The columns that reach a buffer of the given stride. -/
def columnsInto (c : Capture) (stride : UInt32) : Nat :=
  min (min stride.toNat c.stride.toNat) c.width.toNat

/-- The rows that reach a buffer of the given height. -/
def rowsInto (c : Capture) (height : UInt32) : Nat := min height.toNat c.height.toNat

/-- Whether the capture has a known format and all the bytes its geometry takes. -/
def checkedFormat (c : Capture) : Except Failure PixelFormat :=
  match c.format? with
  | none => .error (.unknownFormat c.tag)
  | some format =>
    if addressLimit ≤ c.bytesNeeded format then
      .error (.buffer (.captureTooLarge c.stride c.height format))
    else if c.data.size < c.bytesNeeded format then
      .error (.buffer (.captureTooShort c.data.size c.stride c.height format))
    else .ok format

/-- The bytes of the leftmost `columns` pixels of the row that shows as row `y` from the top. -/
def rowBytes (c : Capture) (format : PixelFormat) (columns y : Nat) : List UInt8 :=
  slice c.data (c.storedRow y * c.stride.toNat * format.bytesPerPixel)
    (columns * format.bytesPerPixel)

/-- Expand row `y` over the leftmost `columns` words of row `y` of a buffer. -/
def copyRow (c : Capture) (format : PixelFormat) (stride columns : Nat) (words : Array UInt32)
    (y : Nat) : Array UInt32 :=
  overwrite words (y * stride)
    (format.convertRow (c.rowBytes format columns y) (slice words (y * stride) columns))

/-- **The canonical form of a capture** at a given size, zero wherever the capture shows nothing. -/
def normalize (c : Capture) (stride height : UInt32) : Except Obstacle PixelBuffer := do
  let format ← c.checkedFormat.mapError .failure
  let blank ← PixelBuffer.zeroed stride height
  let columns := c.columnsInto stride
  return { blank with
    pixels := (rowRange columns (c.rowsInto height)).foldl
      (c.copyRow format stride.toNat columns) blank.pixels }

/-- `normalize`, telling the log what was converted. -/
def normalizeTraced (c : Capture) (stride height : UInt32) :
    Traced Notice (Except Obstacle PixelBuffer) :=
  ⟨c.normalize stride height,
    match c.checkedFormat, PixelBuffer.zeroed stride height with
    | .ok format, .ok _ => [.normalized c.stride c.height format stride height (c.rowsInto height)]
    | _, _ => []⟩

end Capture

end Golden
