import Golden.Proofs.Screenshot.Reloaded

/-!
# Golden.Proofs.Screenshot.Header — what the header of a recorded bitmap says

A load skips the header of a reference, but other readers of the file do not.  Five of its fields
tell them how to read what follows: the length of the file, where the words begin and how many bytes
they take, and the width and the height of the picture, the latter negative for rows from the top.

`Field.read` takes a field from the bytes of a file, and `Field.read_encode` says which word stands
there in the bitmap of a buffer.  Four fields are right in every file that recording a buffer has
left: its size was checked for each of them beforehand (`Reference.problem?_eq_none_iff`).

**The length of the file is right as long as it fits its field.**  What is checked is the length of
the words alone, and the header's own 54 bytes are added to that in 32 bits.  So a buffer whose words
take the last few bytes below 4 GiB is recorded like any other, and its file claims to be 4 GiB
shorter than it is (`Reference.header_of_recorded`, `Reference.header_of_wrapped`).
-/

namespace Golden

/-! ## Signed words -/

theorem toInt_toInt32 {word : UInt32} (h : word.toNat ≤ Reference.signedLimit) :
    word.toInt32.toInt = word.toNat := by
  have hlimit : 2 * word.toNat < 2 ^ 32 := by
    simp only [Reference.signedLimit] at h
    omega
  exact BitVec.toInt_eq_toNat_of_lt hlimit

/-- The negative of a word that fits is the signed word that is taken for it. -/
theorem toInt_toInt32_neg {word : UInt32} (h : word.toNat ≤ Reference.signedLimit) :
    (0 - word).toInt32.toInt = -word.toNat := by
  have hword : word.toBitVec.toInt = word.toNat := toInt_toInt32 h
  simp only [Reference.signedLimit] at h
  show (0#32 - word.toBitVec).toInt = -word.toNat
  rw [BitVec.zero_sub, BitVec.toInt_neg, hword, Int.bmod_def]
  split <;> omega

namespace Reference

/-! ## The fields of a header -/

/-- The fields of a bitmap's header that say how to read the file. -/
inductive Field
  | fileLength
  | wordsOffset
  | width
  | height
  | imageLength
  deriving DecidableEq, Repr

namespace Field

/-- Where the four bytes of a field begin. -/
def position : Field → Nat
  | fileLength => 2
  | wordsOffset => 10
  | width => 18
  | height => 22
  | imageLength => 34

/-- The word that the bytes of a file have in a field. -/
def read (field : Field) (bytes : List UInt8) : UInt32 :=
  littleEndian ((bytes.drop field.position).take 4)

/-- The word that is put into a field for a buffer. -/
def word (b : PixelBuffer) : Field → UInt32
  | fileLength => UInt32.ofNat headerLength + UInt32.ofNat (Reference.imageLength b)
  | wordsOffset => UInt32.ofNat headerLength
  | width => b.stride
  | height => 0 - b.height
  | imageLength => UInt32.ofNat (Reference.imageLength b)

/-- **The bitmap of a buffer has the buffer's word in each field.** -/
theorem read_encode (field : Field) (b : PixelBuffer) :
    field.read (encode b) = field.word b := by
  have hbytes : ((encode b).drop field.position).take 4 = littleEndianBytes (field.word b) := by
    cases field <;> simp [position, word, encode, header, littleEndianBytes, field16]
  rw [read, hbytes, littleEndian_littleEndianBytes]

end Field

/-! ## Lengths -/

theorem length_encode (b : PixelBuffer) : (encode b).length = headerLength + 4 * b.pixels.size := by
  rw [encode, List.length_append, length_header, length_flatMap_littleEndianBytes,
    Array.length_toList, Nat.mul_comm]

/-- The length of the file is added up in 32 bits. -/
theorem toNat_word_fileLength (b : PixelBuffer) :
    (Field.fileLength.word b).toNat = (headerLength + 4 * b.pixels.size) % 2 ^ 32 := by
  simp only [Field.word, imageLength, headerLength, UInt32.toNat_add, UInt32.toNat_ofNat']
  omega

/-! ## Recorded files -/

variable {fs written : Files} {p : Path} {b : PixelBuffer}

theorem read_of_resolve (h : ∃ place, written.resolve p = .ok (place, .file (.bitmap b))) :
    written.read p = .ok (encode b) := by
  obtain ⟨place, hplace⟩ := h
  rw [Files.read, hplace]
  rfl

/-- **What the header of a recorded bitmap says.**  Once a buffer has been recorded, the file at its
path is as long as the header and the words together.  Of the fields of its header those for the
beginning and the length of the words, the width, and the height, negative, are right.  The length
of the file stands there up to multiples of 4 GiB, and so is right exactly if the whole file is
shorter than that. -/
theorem header_of_recorded (h : write fs p b = ⟨written, .ok ()⟩) :
    ∃ bytes, written.read p = .ok bytes ∧ bytes.length = headerLength + 4 * b.pixels.size ∧
      (Field.fileLength.read bytes).toNat = bytes.length % 2 ^ 32 ∧
      ((Field.fileLength.read bytes).toNat = bytes.length ↔ bytes.length ≤ unsignedLimit) ∧
      (Field.wordsOffset.read bytes).toNat = 54 ∧
      (Field.imageLength.read bytes).toNat = 4 * b.pixels.size ∧
      (Field.width.read bytes).toInt32.toInt = b.stride.toNat ∧
      (Field.height.read bytes).toInt32.toInt = -b.height.toNat := by
  obtain ⟨hstride, hheight, himage⟩ := problem?_eq_none_iff.mp (write_eq_ok h).1
  have hfile : (Field.fileLength.read (encode b)).toNat = (encode b).length % 2 ^ 32 := by
    rw [Field.read_encode, toNat_word_fileLength, length_encode]
  have hwords : (Field.imageLength.read (encode b)).toNat = 4 * b.pixels.size := by
    simp only [imageLength, unsignedLimit] at himage
    rw [Field.read_encode, Field.word, UInt32.toNat_ofNat', imageLength]
    omega
  refine ⟨encode b, read_of_resolve (resolve_of_recorded h), length_encode b, hfile, ?_, ?_,
    hwords, ?_, ?_⟩
  · rw [hfile, unsignedLimit]
    omega
  · rw [Field.read_encode]
    rfl
  · rw [Field.read_encode]
    exact toInt_toInt32 hstride
  · rw [Field.read_encode]
    exact toInt_toInt32_neg hheight

/-! ### At the limit -/

theorem size_row (count : UInt32) : (PixelBuffer.blank count 1).pixels.size = count.toNat := by
  rw [PixelBuffer.sized_blank count 1]
  exact Nat.mul_one count.toNat

/-- One row of words is recorded as long as their bytes are counted in 32 bits. -/
theorem exists_write_row {count : UInt32} (h : count.toNat * 4 ≤ unsignedLimit) :
    ∃ written, write ⟨[], []⟩ ⟨"frame.bmp"⟩ (.blank count 1) = ⟨written, .ok ()⟩ ∧
      ∃ place, written.resolve ⟨"frame.bmp"⟩
        = .ok (place, .file (.bitmap (.blank count 1))) := by
  have hp : Files.Writable ⟨[], []⟩ ⟨"frame.bmp"⟩ := ⟨by decide +kernel, by decide +kernel⟩
  have hstride : count.toNat ≤ signedLimit := by
    simp only [unsignedLimit] at h
    rw [signedLimit]
    omega
  have himage : imageLength (.blank count 1) ≤ unsignedLimit := by
    rw [imageLength, size_row]
    exact h
  have hheight : (1 : UInt32).toNat ≤ signedLimit := by decide
  have hfits : problem? (.blank count 1) = none :=
    problem?_eq_none_iff.mpr ⟨hstride, hheight, himage⟩
  exact exists_write hfits hp

/-- The longest file whose length fits its field. -/
theorem header_of_recorded_longest :
    let b : PixelBuffer := .blank 1073741810 1
    let p : Path := ⟨"frame.bmp"⟩
    ∃ written bytes, write ⟨[], []⟩ p b = ⟨written, .ok ()⟩ ∧ written.read p = .ok bytes ∧
      bytes.length = 4294967294 ∧ (Field.fileLength.read bytes).toNat = 4294967294 ∧
      (Field.imageLength.read bytes).toNat = 4294967240 ∧
      (Field.width.read bytes).toInt32.toInt = 1073741810 ∧
      (Field.height.read bytes).toInt32.toInt = -1 := by
  intro b p
  have hsize : b.pixels.size = 1073741810 := size_row 1073741810
  obtain ⟨written, hwrite, -⟩ := exists_write_row (by decide : (1073741810 : UInt32).toNat * 4 ≤ _)
  obtain ⟨bytes, hread, hlength, -, hright, -, himage, hwidth, hheight⟩ :=
    header_of_recorded hwrite
  rw [hsize] at hlength himage
  have hfile := hright.mpr (by rw [hlength]; decide)
  exact ⟨written, bytes, hwrite, hread, hlength, hfile.trans hlength, himage, hwidth, hheight⟩

/-- **One word more, and the length wraps.**  The bytes of the words can still be counted, so the
buffer is recorded; the file is two bytes longer than 4 GiB, and its header says two. -/
theorem header_of_wrapped :
    let b : PixelBuffer := .blank 1073741811 1
    let p : Path := ⟨"frame.bmp"⟩
    ∃ written bytes, write ⟨[], []⟩ p b = ⟨written, .ok ()⟩ ∧ written.read p = .ok bytes ∧
      bytes.length = 4294967298 ∧ (Field.fileLength.read bytes).toNat = 2 ∧
      (Field.fileLength.read bytes).toNat ≠ bytes.length := by
  intro b p
  have hsize : b.pixels.size = 1073741811 := size_row 1073741811
  obtain ⟨written, hwrite, hplace⟩ :=
    exists_write_row (by decide : (1073741811 : UInt32).toNat * 4 ≤ _)
  have hlength : (encode b).length = 4294967298 := by rw [length_encode, hsize]; rfl
  have hfile : (Field.fileLength.read (encode b)).toNat = 2 := by
    rw [Field.read_encode, toNat_word_fileLength, hsize]
    rfl
  refine ⟨written, encode b, hwrite, read_of_resolve hplace, hlength, hfile, ?_⟩
  rw [hfile, hlength]
  decide

end Reference

end Golden
