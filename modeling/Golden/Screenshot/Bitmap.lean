import Golden.Pixel.Buffer

/-!
# Golden.Screenshot.Bitmap — buffers as bitmap files

A reference is kept as a 32-bit bitmap: a header of 54 bytes, then the canonical words of a buffer,
least significant byte first.  Rows are stored from the top, which the format says by a negative
height, so the bytes behind the header are exactly the words of the buffer.

The header has signed fields for the width and the height, and unsigned ones of 32 bits for lengths
in bytes.  `Reference.problem?` refuses a buffer whose size is too large for either; it looks at the
length of the words alone, not at that of the whole file, which the header holds as well.
-/

namespace Golden

namespace Reference

/-- The bytes in front of the pixel words: a file header and an information header. -/
def headerLength : Nat := 14 + 40

/-- The largest number the header's signed fields can hold. -/
def signedLimit : Nat := 0x7FFFFFFF

/-- The largest number the header's unsigned fields can hold. -/
def unsignedLimit : Nat := 0xFFFFFFFF

/-- How many bytes the words of a buffer take. -/
def imageLength (b : PixelBuffer) : Nat := b.pixels.size * 4

/-- What keeps a buffer from being described by a header. -/
def problem? (b : PixelBuffer) : Option BufferProblem :=
  if signedLimit < b.stride.toNat then some (.strideTooLarge b.stride)
  else if signedLimit < b.height.toNat then some (.heightTooLarge b.height)
  else if unsignedLimit < imageLength b then some .dataTooLarge
  else none

/-- A 16-bit field. -/
def field16 (n : UInt16) : List UInt8 := [n.toUInt8, (n >>> 8).toUInt8]

/-- Pixels per metre in both directions, which nobody looks at. -/
def resolution : UInt32 := 2835

/-- The header of a buffer's bitmap. -/
def header (b : PixelBuffer) : List UInt8 :=
  let image := UInt32.ofNat (imageLength b)
  let offset := UInt32.ofNat headerLength
  [0x42, 0x4D] ++ littleEndianBytes (offset + image) ++ littleEndianBytes 0
    ++ littleEndianBytes offset
    ++ littleEndianBytes 40 ++ littleEndianBytes b.stride ++ littleEndianBytes (0 - b.height)
    ++ field16 1 ++ field16 32 ++ littleEndianBytes 0 ++ littleEndianBytes image
    ++ littleEndianBytes resolution ++ littleEndianBytes resolution
    ++ littleEndianBytes 0 ++ littleEndianBytes 0

/-- The bitmap file of a buffer. -/
def encode (b : PixelBuffer) : List UInt8 :=
  header b ++ b.pixels.toList.flatMap littleEndianBytes

@[simp] theorem length_header (b : PixelBuffer) : (header b).length = headerLength := by
  simp [header, littleEndianBytes, field16, headerLength]

end Reference

end Golden
