/-!
# Golden.Picture — pictures with an alpha channel, and their encoding

A `Picture` is what people look at when a screenshot comparison failed: rows of red, green, blue and
alpha.  It is stored as a PNG file.  The encoder takes the format's plainest options — eight bits
for each channel, no filtering, no compression — so the file is the pixels with a frame around them:
a signature and three chunks, each with its length and checksum, the pixel rows in stored blocks
behind a zlib header.
-/

namespace Golden

structure Rgba where
  red : UInt8
  green : UInt8
  blue : UInt8
  alpha : UInt8
  deriving DecidableEq, Repr

/-- A picture, row by row from the top. -/
structure Picture where
  width : Nat
  height : Nat
  pixels : Array Rgba
  deriving DecidableEq, Repr

namespace Picture

/-- A picture of clear pixels. -/
def blank (width height : Nat) : Picture :=
  ⟨width, height, Array.replicate (width * height) ⟨0, 0, 0, 0⟩⟩

/-- Give the pixel in column `x` of row `y` a colour. -/
def put (p : Picture) (x y : Nat) (colour : Rgba) : Picture :=
  { p with pixels := p.pixels.setIfInBounds (y * p.width + x) colour }

/-- The pixel in column `x` of row `y`, if the picture has one. -/
def pixel? (p : Picture) (x y : Nat) : Option Rgba :=
  if x < p.width ∧ y < p.height then p.pixels[y * p.width + x]? else none

/-! ### Checksums -/

/-- One byte of the 32-bit cyclic redundancy check, reflected. -/
def crcStep (crc : UInt32) (b : UInt8) : UInt32 :=
  (List.range 8).foldl
    (fun c _ => if c &&& 1 = 1 then (c >>> 1) ^^^ (0xEDB88320 : UInt32) else c >>> 1)
    (crc ^^^ b.toUInt32)

def crc32 (bytes : List UInt8) : UInt32 := bytes.foldl crcStep 0xFFFFFFFF ^^^ 0xFFFFFFFF

/-- Two running sums to the base 65521, the second in the upper half. -/
def adler32 (bytes : List UInt8) : UInt32 :=
  let (a, b) := bytes.foldl
    (fun (s : Nat × Nat) x => let a := (s.1 + x.toNat) % 65521; (a, (s.2 + a) % 65521)) (1, 0)
  UInt32.ofNat (b * 65536 + a)

/-! ### The file -/

/-- The four bytes of a word, most significant first. -/
def bigEndianBytes (word : UInt32) : List UInt8 :=
  [(word >>> 24).toUInt8, (word >>> 16).toUInt8, (word >>> 8).toUInt8, word.toUInt8]

def chunk (kind : String) (content : List UInt8) : List UInt8 :=
  let body := kind.toList.map (fun c => c.toNat.toUInt8) ++ content
  bigEndianBytes (UInt32.ofNat content.length) ++ body ++ bigEndianBytes (crc32 body)

/-- The most a stored block holds. -/
def blockLimit : Nat := 65535

/-- Bytes in stored blocks, the last one marked; `blocks` is the number of full blocks in front of
it. -/
def storedBlocks : Nat → List UInt8 → List UInt8
  | 0, bytes => block 1 bytes
  | blocks + 1, bytes =>
    block 0 (bytes.take blockLimit) ++ storedBlocks blocks (bytes.drop blockLimit)
where
  block (last : UInt8) (bytes : List UInt8) : List UInt8 :=
    let size := UInt32.ofNat bytes.length
    [last, size.toUInt8, (size >>> 8).toUInt8, ~~~size.toUInt8, ~~~(size >>> 8).toUInt8] ++ bytes

/-- A zlib stream of stored blocks. -/
def zlibStored (bytes : List UInt8) : List UInt8 :=
  [0x78, 0x01] ++ storedBlocks ((bytes.length - 1) / blockLimit) bytes
    ++ bigEndianBytes (adler32 bytes)

/-- The pixel rows, each behind the mark of an unfiltered row. -/
def rows (p : Picture) : List UInt8 :=
  (List.range p.height).flatMap fun y =>
    0 :: (p.pixels.extract (y * p.width) (y * p.width + p.width)).toList.flatMap
      fun c => [c.red, c.green, c.blue, c.alpha]

/-- The chunk that ends a file. -/
def lastChunk : List UInt8 := chunk "IEND" []

/-- The PNG file of a picture. -/
def png (p : Picture) : List UInt8 :=
  [0x89, 0x50, 0x4E, 0x47, 0x0D, 0x0A, 0x1A, 0x0A]
    ++ chunk "IHDR" (bigEndianBytes (UInt32.ofNat p.width) ++ bigEndianBytes (UInt32.ofNat p.height)
        ++ [8, 6, 0, 0, 0])
    ++ chunk "IDAT" (zlibStored p.rows)
    ++ lastChunk

end Picture

end Golden
