import Golden.Proofs.Pixel.Channels
import Golden.Proofs.Pixel.Row
import Golden.Proofs.Pixel.Words

/-!
# Golden.Proofs.Pixel.Converted — what converting a row touches

A row is converted pixel by pixel, from the front, while the source has a whole pixel and the row
has a word.  By induction along the row it may be cut between any two pixels and converted in two
pieces (`convertRow_take_append_convertRow_drop`), and so the bytes behind the last whole pixel are
never looked at (`convertRow_take_whole`).

Source pixel `k` is a number whose digits to the base 256 are the bytes at its place
(`toNat_sourcePixel`), and the word put for it has in each channel that channel of the pixel,
widened.  **Words are put for the pixels that both sides have room for, and all others stay**
(`convertRow_exact`).
-/

namespace Golden.PixelFormat

/-- The bytes of source pixel `k`. -/
def pixelBytes (format : PixelFormat) (source : List UInt8) (k : Nat) : List UInt8 :=
  (source.drop (k * format.bytesPerPixel)).take format.bytesPerPixel

/-- Source pixel `k`: the word that its bytes spell. -/
def sourcePixel (format : PixelFormat) (source : List UInt8) (k : Nat) : UInt32 :=
  littleEndian (format.pixelBytes source k)

/-- How many pixels a source has whole. -/
def wholePixels (format : PixelFormat) (source : List UInt8) : Nat :=
  source.length / format.bytesPerPixel

variable (format : PixelFormat)

theorem lt_wholePixels_iff {source : List UInt8} {k : Nat} :
    k < format.wholePixels source ↔ (k + 1) * format.bytesPerPixel ≤ source.length :=
  Nat.le_div_iff_mul_le format.bytesPerPixel_pos

/-! ## Two pieces -/

variable (source : List UInt8)

/-- **A row converted in two pieces**, cut between any two pixels, is the row converted at once. -/
theorem convertRow_take_append_convertRow_drop (cut : Nat) (row : List UInt32) :
    format.convertRow (source.take (cut * format.bytesPerPixel)) (row.take cut)
        ++ format.convertRow (source.drop (cut * format.bytesPerPixel)) (row.drop cut)
      = format.convertRow source row := by
  induction cut generalizing source row with
  | zero =>
      rw [Nat.zero_mul, List.take_zero, List.drop_zero, List.drop_zero]
      rfl
  | succ cut ih =>
      have hcut : (cut + 1) * format.bytesPerPixel
          = format.bytesPerPixel + cut * format.bytesPerPixel := by
        rw [Nat.succ_mul, Nat.add_comm]
      cases row with
      | nil => rfl
      | cons old rest =>
          rw [List.take_succ_cons, List.drop_succ_cons]
          by_cases hfirst : format.bytesPerPixel ≤ source.length
          · -- the first pixel lies in the first piece, whose rest is cut one pixel earlier
            have hpiece : format.bytesPerPixel
                ≤ (source.take ((cut + 1) * format.bytesPerPixel)).length := by
              rw [List.length_take]
              omega
            rw [convertRow_cons hpiece, convertRow_cons hfirst, List.take_take, List.drop_take,
              hcut, Nat.min_eq_left (Nat.le_add_right _ _), Nat.add_sub_cancel_left,
              ← List.drop_drop, List.cons_append, ih]
          · -- neither piece has a whole pixel, so that both stay
            have hsource : source.length < format.bytesPerPixel := Nat.lt_of_not_le hfirst
            have hfront : (source.take ((cut + 1) * format.bytesPerPixel)).length
                < format.bytesPerPixel := Nat.lt_of_le_of_lt (List.length_take_le' _ _) hsource
            have hback : (source.drop ((cut + 1) * format.bytesPerPixel)).length
                < format.bytesPerPixel := by
              rw [List.length_drop]
              omega
            rw [convertRow_of_short hfront, convertRow_of_short hback, convertRow_of_short hsource,
              List.cons_append, List.take_append_drop]

/-- **Bytes behind the last whole pixel** make no difference. -/
theorem convertRow_take_whole (row : List UInt32) :
    format.convertRow (source.take (format.wholePixels source * format.bytesPerPixel)) row
      = format.convertRow source row := by
  have hbehind : (source.drop (format.wholePixels source * format.bytesPerPixel)).length
      < format.bytesPerPixel := by
    rw [List.length_drop, wholePixels, ← Nat.mod_eq_sub_div_mul]
    exact Nat.mod_lt _ format.bytesPerPixel_pos
  have hnothing : ([] : List UInt8).length < format.bytesPerPixel := format.bytesPerPixel_pos
  -- both are cut behind the last whole pixel, and what comes there changes nothing
  rw [← convertRow_take_append_convertRow_drop format source (format.wholePixels source) row,
    ← convertRow_take_append_convertRow_drop format _ (format.wholePixels source) row,
    List.take_take, Nat.min_self, List.drop_take, Nat.sub_self, List.take_zero,
    convertRow_of_short hbehind, convertRow_of_short hnothing]

/-! ## All positions -/

theorem toNat_sourcePixel (k : Nat) :
    (format.sourcePixel source k).toNat
      = Nat.ofDigits 256 ((format.pixelBytes source k).map UInt8.toNat) :=
  toNat_littleEndian (Nat.le_trans (List.length_take_le _ _) format.bytesPerPixel_le)

theorem sourcePixel_lt (k : Nat) :
    (format.sourcePixel source k).toNat < 256 ^ format.bytesPerPixel := by
  have hlength : (format.pixelBytes source k).length ≤ format.bytesPerPixel :=
    List.length_take_le _ _
  calc (format.sourcePixel source k).toNat < 256 ^ (format.pixelBytes source k).length :=
        toNat_littleEndian_lt (Nat.le_trans hlength format.bytesPerPixel_le)
    _ ≤ 256 ^ format.bytesPerPixel := Nat.pow_le_pow_right (by decide) hlength

/-- **What converting a row touches, whatever the lengths of both sides.**  The row keeps its
length.  As many words are put as there are words in the row and whole pixels in the source: for
each of these pixels, read with its least significant byte first, the word of which every channel is
the channel of the pixel, widened to eight bits.  Every later word stays as it was.  The bytes
behind the last whole pixel are ignored, and a row cut between any two pixels is converted piece by
piece as it is at once. -/
theorem convertRow_exact (row : List UInt32) :
    (format.convertRow source row).length = row.length ∧
    (∀ k < min row.length (format.wholePixels source),
      (format.convertRow source row)[k]? = some (format.expand (format.sourcePixel source k)) ∧
      (format.sourcePixel source k).toNat
        = Nat.ofDigits 256 ((format.pixelBytes source k).map UInt8.toNat) ∧
      ∀ ch, bgra8888.channel ch (format.expand (format.sourcePixel source k))
        = widened (format.bits ch).width (format.channel ch (format.sourcePixel source k))) ∧
    (∀ k, min row.length (format.wholePixels source) ≤ k →
      (format.convertRow source row)[k]? = row[k]?) ∧
    format.convertRow (source.take (format.wholePixels source * format.bytesPerPixel)) row
      = format.convertRow source row ∧
    ∀ cut, format.convertRow (source.take (cut * format.bytesPerPixel)) (row.take cut)
        ++ format.convertRow (source.drop (cut * format.bytesPerPixel)) (row.drop cut)
      = format.convertRow source row := by
  refine ⟨format.length_convertRow source row, ?put, ?stays,
    format.convertRow_take_whole source row,
    fun cut => format.convertRow_take_append_convertRow_drop source cut row⟩
  case put =>
    intro k hk
    obtain ⟨hrow, hsource⟩ := Nat.lt_min.mp hk
    refine ⟨?_, format.toNat_sourcePixel source k,
      fun ch => format.channel_expand ch (format.sourcePixel_lt source k)⟩
    rw [getElem?_convertRow format hrow, if_pos (format.lt_wholePixels_iff.mp hsource)]
    rfl
  case stays =>
    intro k hk
    by_cases hrow : k < row.length
    · have hsource : ¬ k < format.wholePixels source := fun hlt =>
        Nat.not_lt_of_le hk (Nat.lt_min.mpr ⟨hrow, hlt⟩)
      rw [getElem?_convertRow format hrow, if_neg (mt format.lt_wholePixels_iff.mpr hsource)]
    · have hend : row.length ≤ k := Nat.le_of_not_lt hrow
      have hend' : (format.convertRow source row).length ≤ k := by
        rw [length_convertRow]
        exact hend
      rw [List.getElem?_eq_none hend, List.getElem?_eq_none hend']

/-- Two and a half pixels over three words: the first two words are put, white and red, and the
third stays, as it does when the row is cut behind the first pixel. -/
theorem convertRow_exact_partial :
    let source : List UInt8 := [0xFF, 0xFF, 0x1F, 0x00, 0xE0]
    let row : List UInt32 := [7, 8, 9]
    1 < min row.length (rgb565.wholePixels source) ∧
    min row.length (rgb565.wholePixels source) ≤ 2 ∧
    (rgb565.convertRow source row)[1]? = some 0xFFFF0000 ∧
    (rgb565.convertRow source row)[2]? = some 9 ∧
    rgb565.convertRow [0xFF, 0xFF] [7] ++ rgb565.convertRow [0x1F, 0x00, 0xE0] [8, 9]
      = rgb565.convertRow source row := by
  intro source row
  have hput : 1 < min row.length (rgb565.wholePixels source) := by decide
  have hstays : min row.length (rgb565.wholePixels source) ≤ 2 := by decide
  obtain ⟨-, hwords, hothers, -, hpieces⟩ := convertRow_exact rgb565 source row
  have hred : rgb565.expand (rgb565.sourcePixel source 1) = 0xFFFF0000 := by decide
  exact ⟨hput, hstays, (hwords 1 hput).1.trans (congrArg some hred), hothers 2 hstays, hpieces 1⟩

end Golden.PixelFormat
