import Golden.Screenshot.Reference

/-!
# Golden.Screenshot.DiffPicture — showing where two screenshots differ

The picture has one pixel for every compared one: opaque red where the colours differ, and the
actual pixel at half its brightness and half transparent where they agree.  A half-transparent pixel
is never opaque red, so the picture shows exactly what it counts.

It is drawn pixel by pixel, and the differing ones are counted on the way (`View.draw`).  The score
has no part in that: here two words differ if any bit of their colours does.

Both buffers are judged with the same check as for a score.  `writeDiffPicture` does so before it
creates anything; after that the directories are made, and then the file.
-/

namespace Golden

/-- A picture that is being drawn, and how many differing pixels there are in it so far. -/
structure Drawing where
  picture : Picture
  differing : Nat

namespace View

/-- A pixel where the colours differ. -/
def differing : Rgba := ⟨255, 0, 0, 255⟩

/-- A pixel where they agree. -/
def dimmed (word : UInt32) : Rgba :=
  ⟨(word >>> 16).toUInt8 / 2, (word >>> 8).toUInt8 / 2, word.toUInt8 / 2, 128⟩

/-- Draw the pixel in column `x` of row `y`. -/
def drawPixel (v : View) (pixels reference : Array UInt32) (y : Nat) (d : Drawing) (x : Nat) :
    Drawing :=
  let actual := pixels.getD (v.index x y) 0
  let expected := reference.getD (v.index x y) 0
  if (actual ^^^ expected) &&& 0x00FFFFFF ≠ 0 then
    ⟨d.picture.put x y differing, d.differing + 1⟩
  else ⟨d.picture.put x y (dimmed actual), d.differing⟩

/-- Draw the compared pixels of row `y`. -/
def drawRow (v : View) (pixels reference : Array UInt32) (d : Drawing) (y : Nat) : Drawing :=
  (List.range v.width.toNat).foldl (v.drawPixel pixels reference y) d

/-- Draw the differences between two buffers. -/
def draw (v : View) (pixels reference : Array UInt32) : Drawing :=
  (rowRange v.width.toNat v.height.toNat).foldl (v.drawRow pixels reference)
    ⟨.blank v.width.toNat v.height.toNat, 0⟩

/-- The drawing of two buffers, each of which must cover the view. -/
def drawingOf (v : View) (pixels reference : Array UInt32) : Except Failure Drawing := do
  v.check pixels
  v.check reference
  return v.draw pixels reference

end View

namespace Picture

/-- Whether a path names a picture file, by its extension in any case of letters. -/
def isPictureName (p : Path) : Bool :=
  match p.extension? with
  | none => false
  | some extension =>
    let lower := String.ofList (extension.toList.map Char.toLower)
    lower == "png" || lower == "apng"

/-- Store a picture.  A picture without any pixels cannot be encoded; by then the file has been
opened, and all that it comes to hold is the chunk that ends it. -/
def write (fs : Files) (p : Path) (picture : Picture) : Attempt Unit :=
  if !isPictureName p then ⟨fs, .error (.picture .unknownFormat)⟩
  else
    let content :=
      if picture.width = 0 ∨ picture.height = 0 then .raw lastChunk else .picture picture
    match fs.write p content with
    | .error cause => ⟨fs, .error (.picture (.file cause))⟩
    | .ok written =>
      if picture.width = 0 then ⟨written, .error (.picture .zeroWidth)⟩
      else if picture.height = 0 then ⟨written, .error (.picture .zeroHeight)⟩
      else ⟨written, .ok ()⟩

end Picture

/-- **Write the picture of the differences**, making the directories it lies in; the outcome is the
number of differing pixels. -/
def writeDiffPicture (fs : Files) (p : Path) (pixels reference : Array UInt32) (v : View) :
    Attempt Nat :=
  match v.drawingOf pixels reference with
  | .error failure => ⟨fs, .error failure⟩
  | .ok drawing =>
    let made := fs.makeParent p
    match made.stopped with
    | some cause => ⟨made.files, .error (.io cause)⟩
    | none =>
      let attempt := drawing.picture.write made.files p
      ⟨attempt.files, attempt.outcome.map fun _ => drawing.differing⟩

end Golden
