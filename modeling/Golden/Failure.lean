import Golden.Cause
import Golden.Decimal.Layout
import Golden.Path
import Golden.Pixel.Format

/-!
# Golden.Failure — why a comparison, a recording or a configuration was refused

Every refusal has one cause, kept as data until somebody has to read it; `Failure.message` is the
one place where the wording lives.

Two questions are asked of a failure without looking at its words: whether the reference bitmap
could not be used (`isReferenceUnreadable`), and whether a buffer had the wrong size or format
(`isBufferFormat`).

A step that takes memory can also come to nothing without having been refused (`Obstacle.overrun`).
Nobody answers for that, and whatever is going on is broken off there.
-/

namespace Golden

/-- What is wrong with the size of a buffer. -/
inductive BufferProblem
  | viewTooLarge (stride height : UInt32)
  | tooFewPixels (available : Nat) (stride height : UInt32)
  | widthExceedsStride (width stride : UInt32)
  | captureTooLarge (stride height : UInt32) (format : PixelFormat)
  | captureTooShort (held : Nat) (stride height : UInt32) (format : PixelFormat)
  | strideTooLarge (stride : UInt32)
  | heightTooLarge (height : UInt32)
  | dataTooLarge
  deriving DecidableEq, Repr

/-- `stride` by `height`, as messages give the size of a view. -/
def sizeText (stride height : UInt32) : String :=
  toString stride.toNat ++ "x" ++ toString height.toNat

namespace BufferProblem

def message : BufferProblem → String
  | .viewTooLarge stride height => sizeText stride height ++ " view is too large"
  | .tooFewPixels available stride height =>
    toString available ++ " pixels available, " ++ sizeText stride height ++ " needs "
      ++ toString (stride.toNat * height.toNat)
  | .widthExceedsStride width stride =>
    "width " ++ toString width.toNat ++ " exceeds stride " ++ toString stride.toNat
  | .captureTooLarge stride height format =>
    sizeText stride height ++ " " ++ format.name ++ " capture is too large"
  | .captureTooShort held stride height format =>
    "capture holds " ++ toString held ++ " bytes, " ++ sizeText stride height ++ " " ++ format.name
      ++ " needs " ++ toString (stride.toNat * height.toNat * format.bytesPerPixel)
  | .strideTooLarge stride => "stride " ++ toString stride.toNat ++ " too large"
  | .heightTooLarge height => "height " ++ toString height.toNat ++ " too large"
  | .dataTooLarge => "pixel data exceeds 4 GiB"

end BufferProblem

/-- Why a picture could not be written. -/
inductive PictureProblem
  | unknownFormat
  | zeroWidth
  | zeroHeight
  | file (cause : Cause)
  deriving DecidableEq, Repr

namespace PictureProblem

def message : PictureProblem → String
  | .unknownFormat => "The image format could not be determined"
  | .zeroWidth => "Zero width not allowed"
  | .zeroHeight => "Zero height not allowed"
  | .file cause => cause.message

end PictureProblem

/-- Why something was refused. -/
inductive Failure
  | expectationMissing (path : Path)
  | unknownFormat (tag : UInt32)
  | buffer (problem : BufferProblem)
  | referenceMissing (path : Path)
  | referenceTruncated (path : Path)
  /-- The highest tolerated error ratio is not a number from 0 to 1. -/
  | ratioOutOfRange (ratio : Float)
  | io (cause : Cause)
  | configurationText
  | reportText
  | picture (problem : PictureProblem)

namespace Failure

def message : Failure → String
  | .expectationMissing path => "Expectation file " ++ path.text ++ " not found"
  | .unknownFormat tag => "Unsupported pixel format tag: " ++ toString tag.toNat
  | .buffer problem => "Buffer format conversion error: " ++ problem.message
  | .referenceMissing path => "Unable to read screenshot: " ++ path.text
  | .referenceTruncated path => "Unable to read screenshot data: " ++ path.text
  | .ratioOutOfRange ratio =>
    "Invalid configuration: screenshot.max_error_ratio must be within 0.0..=1.0, got "
      ++ Decimal.display ratio
  | .io cause => "IO error: " ++ cause.message
  | .configurationText => "TOML parse error: invalid configuration"
  | .reportText => "JSON error: invalid report"
  | .picture problem => "Image error: " ++ problem.message

/-- Whether the reference bitmap could not be used. -/
def isReferenceUnreadable : Failure → Bool
  | .referenceMissing _ | .referenceTruncated _ => true
  | _ => false

/-- Whether converting or sizing a pixel buffer failed. -/
def isBufferFormat : Failure → Bool
  | .unknownFormat _ | .buffer _ => true
  | _ => false

/-- What lies behind a failure that only passes another one on. -/
def source? : Failure → Option Cause
  | .io cause => some cause
  | _ => none

end Failure

/-- Why a step came to nothing. -/
inductive Obstacle
  | failure (failure : Failure)
  /-- The step asked for more bytes than one vector can hold. -/
  | overrun

end Golden
