/-!
# Golden.Pixel.Format — how a captured pixel is stored

A framebuffer is captured in one of five encodings.  Each expands to the same canonical word
`0xAARRGGBB`, which is how a pixel of a 32-bit bitmap reads as a little-endian word.

The 16-bit encodings keep red in the low bits.  A channel of fewer than eight bits is widened by
repeating its leading bits below it, so that the darkest value stays 0, the brightest becomes 255,
and two different source values never meet.  The encoding without alpha is opaque.

A capture names its encoding by a numeric tag, a user by a short name; both are listed here once.
-/

namespace Golden

/-- The word that a sequence of bytes spells, least significant byte first. -/
def littleEndian : List UInt8 → UInt32
  | [] => 0
  | b :: rest => b.toUInt32 ||| (littleEndian rest <<< 8)

/-- The four bytes of a word, least significant first. -/
def littleEndianBytes (word : UInt32) : List UInt8 :=
  [word.toUInt8, (word >>> 8).toUInt8, (word >>> 16).toUInt8, (word >>> 24).toUInt8]

namespace Pixel

/-- The canonical word of four eight-bit channels. -/
def pack (red green blue alpha : UInt32) : UInt32 :=
  (alpha <<< 24) ||| (red <<< 16) ||| (green <<< 8) ||| blue

def widen4 (v : UInt32) : UInt32 := v * 0x11

def widen5 (v : UInt32) : UInt32 := (v <<< 3) ||| (v >>> 2)

def widen6 (v : UInt32) : UInt32 := (v <<< 2) ||| (v >>> 4)

/-- 5-6-5 without alpha. -/
def ofRgb565 (c : UInt32) : UInt32 :=
  pack (widen5 (c &&& 0x1F)) (widen6 ((c >>> 5) &&& 0x3F)) (widen5 ((c >>> 11) &&& 0x1F)) 0xFF

/-- 5-5-5 with one bit of alpha. -/
def ofRgba5551 (c : UInt32) : UInt32 :=
  pack (widen5 (c &&& 0x1F)) (widen5 ((c >>> 5) &&& 0x1F)) (widen5 ((c >>> 10) &&& 0x1F))
    (if (c >>> 15) = 0 then 0 else 0xFF)

/-- Four bits for each channel. -/
def ofRgba4444 (c : UInt32) : UInt32 :=
  pack (widen4 (c &&& 0xF)) (widen4 ((c >>> 4) &&& 0xF)) (widen4 ((c >>> 8) &&& 0xF))
    (widen4 ((c >>> 12) &&& 0xF))

/-- Exchange the lowest byte of a word with its third. -/
def swapRedBlue (c : UInt32) : UInt32 :=
  pack (c &&& 0xFF) ((c >>> 8) &&& 0xFF) ((c >>> 16) &&& 0xFF) (c >>> 24)

/-- The red, green and blue of a canonical word. -/
def colour (c : UInt32) : UInt32 := c &&& 0x00FFFFFF

end Pixel

/-- The encodings a capture can arrive in. -/
inductive PixelFormat
  | rgb565
  | rgba5551
  | rgba4444
  /-- Eight bits for each channel with red in the low byte. -/
  | rgba8888
  /-- Eight bits for each channel, already canonical. -/
  | bgra8888
  deriving DecidableEq, Repr

namespace PixelFormat

def all : List PixelFormat := [.rgb565, .rgba5551, .rgba4444, .rgba8888, .bgra8888]

/-- The number a capture names its encoding by. -/
def tag : PixelFormat → UInt32
  | .rgb565 => 0
  | .rgba5551 => 1
  | .rgba4444 => 2
  | .rgba8888 => 3
  | .bgra8888 => 11

/-- The name a user gives. -/
def name : PixelFormat → String
  | .rgb565 => "565"
  | .rgba5551 => "5551"
  | .rgba4444 => "4444"
  | .rgba8888 => "8888"
  | .bgra8888 => "8888-bgra"

def bytesPerPixel : PixelFormat → Nat
  | .rgb565 | .rgba5551 | .rgba4444 => 2
  | .rgba8888 | .bgra8888 => 4

def ofTag? (tag : UInt32) : Option PixelFormat := all.find? (·.tag = tag)

def ofName? (name : String) : Option PixelFormat := all.find? (·.name = name)

theorem ofTag?_tag : ∀ format : PixelFormat, ofTag? format.tag = some format
  | .rgb565 | .rgba5551 | .rgba4444 | .rgba8888 | .bgra8888 => by decide

theorem ofName?_name : ∀ format : PixelFormat, ofName? format.name = some format
  | .rgb565 | .rgba5551 | .rgba4444 | .rgba8888 | .bgra8888 => by decide

theorem bytesPerPixel_pos : ∀ format : PixelFormat, 0 < format.bytesPerPixel
  | .rgb565 | .rgba5551 | .rgba4444 | .rgba8888 | .bgra8888 => by decide

/-- The canonical word for a source word of this encoding. -/
def expand : PixelFormat → UInt32 → UInt32
  | .rgb565 => Pixel.ofRgb565
  | .rgba5551 => Pixel.ofRgba5551
  | .rgba4444 => Pixel.ofRgba4444
  | .rgba8888 => Pixel.swapRedBlue
  | .bgra8888 => id

/-- Expand a row of source bytes over a destination row.  Pixels are converted while both rows last;
a trailing part of a pixel is ignored, and destination words beyond the source keep their value. -/
def convertRow (format : PixelFormat) : List UInt8 → List UInt32 → List UInt32
  | _, [] => []
  | source, old :: rest =>
    let pixel := source.take format.bytesPerPixel
    if pixel.length = format.bytesPerPixel then
      format.expand (littleEndian pixel)
        :: convertRow format (source.drop format.bytesPerPixel) rest
    else old :: rest

@[simp] theorem length_convertRow (format : PixelFormat) :
    ∀ (source : List UInt8) (row : List UInt32), (format.convertRow source row).length = row.length
  | _, [] => rfl
  | source, old :: rest => by
      unfold convertRow
      dsimp only
      split
      · simp [length_convertRow format (source.drop format.bytesPerPixel) rest]
      · rfl

end PixelFormat

end Golden
