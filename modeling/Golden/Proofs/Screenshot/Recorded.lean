import Golden.Proofs.Files.Written
import Golden.Proofs.Pixel.Canonical
import Golden.Proofs.Pixel.Words
import Golden.Screenshot.Recording

/-!
# Golden.Proofs.Screenshot.Recorded — a recorded reference is loaded word for word

A word and its four bytes determine each other (`littleEndian_littleEndianBytes`), so the words
behind the header of a bitmap are the words of the buffer it was made of, and a load that asks for
as many of them gets them all (`Reference.load_of_write`).  The header itself is never read; it only
has to be as long as the load believes.

`Reference.Recordable` collects what a bitmap can describe and `Files.Writable` what the files must
allow.  Under these two recording succeeds (`Reference.exists_write`).
-/

namespace Golden

/-! ## Words and their bytes -/

theorem littleEndian_littleEndianBytes (word : UInt32) :
    littleEndian (littleEndianBytes word) = word := by
  have hword := word.toNat_lt
  apply UInt32.toNat_inj.mp
  rw [littleEndianBytes]
  simp only [toNat_littleEndian_cons]
  simp only [littleEndian, UInt32.toNat_toUInt8, UInt32.toNat_shiftRight, UInt32.reduceToNat,
    Nat.shiftRight_eq_div_pow, Nat.reduceMod, Nat.reducePow]
  omega

theorem length_flatMap_littleEndianBytes (words : List UInt32) :
    (words.flatMap littleEndianBytes).length = words.length * 4 := by
  induction words with
  | nil => rfl
  | cons word rest ih =>
      rw [List.flatMap_cons, List.length_append, ih, List.length_cons]
      show 4 + rest.length * 4 = (rest.length + 1) * 4
      omega

namespace Reference

/-- As many words are read back as are asked for, out of those that were spelled out. -/
theorem wordsOf_flatMap_littleEndianBytes {count : Nat} {words : List UInt32}
    (h : count ≤ words.length) :
    wordsOf count (words.flatMap littleEndianBytes) = words.take count := by
  induction count generalizing words with
  | zero => rfl
  | succ count ih =>
      cases words with
      | nil => exact absurd h (Nat.not_succ_le_zero count)
      | cons word rest =>
          have hlength : (littleEndianBytes word).length = 4 := rfl
          rw [List.flatMap_cons, wordsOf, List.take_left' hlength, List.drop_left' hlength,
            littleEndian_littleEndianBytes, ih (Nat.le_of_succ_le_succ h), List.take_succ_cons]

theorem toArray_take_toList (words : Array UInt32) (count : Nat) :
    (words.toList.take count).toArray = words.take count := by
  apply Array.toList_inj.mp
  rw [Array.take, Array.toList_extract, List.extract_eq_take_drop]
  rfl

theorem drop_header_encode (b : PixelBuffer) :
    (encode b).drop headerLength = b.pixels.toList.flatMap littleEndianBytes :=
  List.drop_left' (length_header b)

/-! ## What can be recorded -/

/-- What is checked of a buffer before it is recorded. -/
theorem problem?_eq_none_iff {b : PixelBuffer} :
    problem? b = none ↔ b.stride.toNat ≤ signedLimit ∧ b.height.toNat ≤ signedLimit ∧
      imageLength b ≤ unsignedLimit := by
  unfold problem?
  split
  · rename_i hstride
    exact ⟨nofun, fun h => absurd hstride (Nat.not_lt_of_le h.1)⟩
  · rename_i hstride
    split
    · rename_i hheight
      exact ⟨nofun, fun h => absurd hheight (Nat.not_lt_of_le h.2.1)⟩
    · rename_i hheight
      split
      · rename_i himage
        exact ⟨nofun, fun h => absurd himage (Nat.not_lt_of_le h.2.2)⟩
      · rename_i himage
        exact ⟨fun _ => ⟨Nat.le_of_not_lt hstride, Nat.le_of_not_lt hheight,
          Nat.le_of_not_lt himage⟩, fun _ => rfl⟩

/-- A buffer whose size fits the fields of a bitmap's header: the signed ones for its stride and
height, and an unsigned one for the length of the whole file. -/
structure Recordable (b : PixelBuffer) : Prop where
  sized : b.Sized
  stride_le : b.stride.toNat ≤ signedLimit
  height_le : b.height.toNat ≤ signedLimit
  length_le : headerLength + 4 * (b.stride.toNat * b.height.toNat) ≤ unsignedLimit

/-- What can be recorded takes far less than a vector can hold. -/
theorem Recordable.room {b : PixelBuffer} (h : Recordable b) :
    4 * (b.stride.toNat * b.height.toNat) ≤ vectorLimit := by
  have hlength := h.length_le
  unfold headerLength unsignedLimit at hlength
  unfold vectorLimit
  omega

theorem Recordable.problem?_eq_none {b : PixelBuffer} (h : Recordable b) : problem? b = none := by
  have hsized : b.pixels.size = b.stride.toNat * b.height.toNat := h.sized
  have hlength := h.length_le
  have himage : imageLength b ≤ unsignedLimit := by
    unfold imageLength
    omega
  exact problem?_eq_none_iff.mpr ⟨h.stride_le, h.height_le, himage⟩

/-! ## Recording and loading -/

/-- **The words of a recorded buffer are read in order**, as many as are asked for, whatever the
stride and height they are asked for by.  Where there are too few of them nothing is loaded. -/
theorem load_encode {fs : Files} {p : Path} {place : Place} {b : PixelBuffer}
    {stride height : UInt32} (hroom : 4 * (stride.toNat * height.toNat) ≤ vectorLimit)
    (h : fs.resolve p = .ok (place, .file (.bitmap b))) :
    load fs p stride height
      = if stride.toNat * height.toNat ≤ b.pixels.size then
          .ok (b.pixels.take (stride.toNat * height.toNat))
        else .error (.reading .endOfData) := by
  have hheld : ((encode b).drop headerLength).length = b.pixels.size * 4 := by
    rw [drop_header_encode, length_flatMap_littleEndianBytes, Array.length_toList]
  have haddress : ¬ addressLimit ≤ 4 * (stride.toNat * height.toNat) :=
    Nat.not_le_of_lt (Nat.lt_of_le_of_lt hroom vectorLimit_lt)
  unfold load
  simp only [h, if_neg haddress, if_neg (Nat.not_lt_of_le hroom)]
  by_cases hempty : stride.toNat * height.toNat = 0
  · -- nothing is read when nothing is asked for
    rw [if_pos hempty, hempty, if_pos (Nat.zero_le _)]
    simp
  · rw [if_neg hempty, show (Content.bitmap b).bytes = encode b from rfl, hheld]
    by_cases henough : stride.toNat * height.toNat ≤ b.pixels.size
    · have hlength : stride.toNat * height.toNat ≤ b.pixels.toList.length := by
        rw [Array.length_toList]
        exact henough
      have hshort : ¬ b.pixels.size * 4 < 4 * (stride.toNat * height.toNat) := by omega
      rw [if_neg hshort, if_pos henough, drop_header_encode,
        wordsOf_flatMap_littleEndianBytes hlength, toArray_take_toList]
    · have hshort : b.pixels.size * 4 < 4 * (stride.toNat * height.toNat) := by omega
      rw [if_pos hshort, if_neg henough]

/-- A buffer with all its words gets them back. -/
theorem load_encode_sized {fs : Files} {p : Path} {place : Place} {b : PixelBuffer} (hb : b.Sized)
    (hroom : 4 * (b.stride.toNat * b.height.toNat) ≤ vectorLimit)
    (h : fs.resolve p = .ok (place, .file (.bitmap b))) :
    load fs p b.stride b.height = .ok b.pixels := by
  have hsize : b.stride.toNat * b.height.toNat = b.pixels.size := Eq.symm hb
  rw [load_encode hroom h, hsize, if_pos (Nat.le_refl _)]
  simp

/-- A buffer that the header's fields are checked for is recorded wherever something can be written,
and its bitmap is what the path leads to. -/
theorem exists_write {fs : Files} {p : Path} {b : PixelBuffer} (hb : problem? b = none)
    (hp : fs.Writable p) :
    ∃ written, write fs p b = ⟨written, .ok ()⟩ ∧
      ∃ place, written.resolve p = .ok (place, .file (.bitmap b)) := by
  obtain ⟨written, hwritten⟩ := hp.exists_write (.bitmap b)
  refine ⟨written, ?_, Files.resolve_of_write hwritten⟩
  simp only [write, hb, hp.made, hwritten]

/-- **What is recorded can be loaded.**  Recording a buffer that a bitmap can describe succeeds
wherever something can be written, and loading gives its words back. -/
theorem load_of_write {fs : Files} {p : Path} {b : PixelBuffer} (hb : Recordable b)
    (hp : fs.Writable p) :
    ∃ written, write fs p b = ⟨written, .ok ()⟩ ∧
      load written p b.stride b.height = .ok b.pixels := by
  obtain ⟨written, hwritten, place, hplace⟩ := exists_write hb.problem?_eq_none hp
  exact ⟨written, hwritten, load_encode_sized hb.sized hb.room hplace⟩

end Reference

end Golden
