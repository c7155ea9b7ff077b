import Golden.Files
import Golden.Screenshot.Score

/-!
# Golden.Screenshot.Reference — recorded reference bitmaps

A reference is the bitmap file of a buffer (`Golden.Screenshot.Bitmap`).

Recording (`Reference.write`) refuses what the header could not describe before it touches the
files.  Loading (`Reference.load`) skips the header unread and takes as many words as the view asks
for; a file that ends early is an error, and bytes beyond the last word are left alone.  A load that
takes no words reads nothing at all, so it succeeds on whatever can be opened.

The room for the words is made before the first of them is read.  So a view whose bytes can be
counted but held by no vector is an overrun, however short the file is.
-/

namespace Golden

namespace Reference

/-- **Record a buffer** as the reference at a path, making the directories it lies in. -/
def write (fs : Files) (p : Path) (b : PixelBuffer) : Attempt Unit :=
  match problem? b with
  | some problem => ⟨fs, .error (.buffer problem)⟩
  | none =>
    let made := fs.makeParent p
    match made.stopped with
    | some cause => ⟨made.files, .error (.io cause)⟩
    | none =>
      match made.files.write p (.bitmap b) with
      | .error cause => ⟨made.files, .error (.io cause)⟩
      | .ok written => ⟨written, .ok ()⟩

/-- `write`, telling the log of a recorded reference. -/
def writeTraced (fs : Files) (p : Path) (b : PixelBuffer) : Traced Notice (Attempt Unit) :=
  let attempt := write fs p b
  ⟨attempt,
    match attempt.outcome with
    | .error _ => []
    | .ok () => [.referenceWritten b.stride b.height p]⟩

/-- Why a reference could not be loaded. -/
inductive LoadProblem
  | opening (cause : Cause)
  | viewTooLarge
  | overrun
  | reading (cause : Cause)
  deriving DecidableEq, Repr

namespace LoadProblem

/-- What becomes of the problem for a reference of the given place and size. -/
def obstacle (p : Path) (stride height : UInt32) : LoadProblem → Obstacle
  | .opening _ => .failure (.referenceMissing p)
  | .viewTooLarge => .failure (.buffer (.viewTooLarge stride height))
  | .overrun => .overrun
  | .reading _ => .failure (.referenceTruncated p)

/-- What the log is told about it. -/
def notices (p : Path) : LoadProblem → List Notice
  | .opening cause => [.openingFailed p cause]
  | .viewTooLarge | .overrun => []
  | .reading cause => [.readingFailed p cause]

end LoadProblem

/-- The first `count` words of a byte sequence. -/
def wordsOf : Nat → List UInt8 → List UInt32
  | 0, _ => []
  | count + 1, bytes => littleEndian (bytes.take 4) :: wordsOf count (bytes.drop 4)

/-- **Load the words of a reference**, `stride · height` of them. -/
def load (fs : Files) (p : Path) (stride height : UInt32) :
    Except LoadProblem (Array UInt32) :=
  let count := stride.toNat * height.toNat
  match fs.resolve p with
  | .error cause => .error (.opening cause)
  | .ok (_, entry) =>
    if addressLimit ≤ 4 * count then .error .viewTooLarge
    else if vectorLimit < 4 * count then .error .overrun
    else if count = 0 then .ok #[]
    else
      match entry with
      | .directory => .error (.reading .isADirectory)
      | .file content =>
        let words := content.bytes.drop headerLength
        if words.length < 4 * count then .error (.reading .endOfData)
        else .ok (wordsOf count words).toArray

/-- `load`, with the problem told to the log and turned into what becomes of it. -/
def loadTraced (fs : Files) (p : Path) (stride height : UInt32) :
    Traced Notice (Except Obstacle (Array UInt32)) :=
  match load fs p stride height with
  | .ok words => ⟨.ok words, []⟩
  | .error problem => ⟨.error (problem.obstacle p stride height), problem.notices p⟩

/-- **The error ratio of pixels against the reference at a path.**  The sizes are checked before the
reference is looked for. -/
def compare (fs : Files) (p : Path) (pixels : Array UInt32) (v : View) : Except Obstacle Float := do
  (v.check pixels).mapError .failure
  let reference ← (loadTraced fs p v.stride v.height).value
  let score ← (Score.ofPixels pixels reference v).mapError .failure
  return score.ratio

end Reference

end Golden
