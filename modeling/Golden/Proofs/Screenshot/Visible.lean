import Golden.Proofs.Pixel.Channels
import Golden.Proofs.Pixel.Pointwise
import Golden.Proofs.Pixel.Words
import Golden.Proofs.Screenshot.Differences

/-!
# Golden.Proofs.Screenshot.Visible — what shows is told apart

Two captures of one shape (`Capture.SameShape`) are brought into canonical form pixel by pixel, so
all that can make the forms differ is the bytes of the pixels that show (`Capture.shownBytes`).
These make a word each, which has as many bytes as the encoding says and is determined by them
(`littleEndian_inj`); and words of an encoding expand to canonical words without anything being lost
(`PixelFormat.expand_eq_iff`).

**So the canonical forms are the same exactly if everything that shows is stored alike**
(`Capture.normalize_eq_iff_shown`).  What a score looks at is the colour alone.  If red, green or
blue is stored differently anywhere that shows, the colours differ there, and every score whose view
takes the place in counts it (`View.mismatches`).
-/

namespace Golden

/-! ## Buffers by position -/

namespace PixelBuffer

/-- **Buffers of one size with the same word at every position are the same.** -/
theorem eq_of_get?_eq {a b : PixelBuffer} (ha : a.Sized) (hb : b.Sized)
    (hstride : a.stride = b.stride) (hheight : a.height = b.height)
    (h : ∀ x y : UInt32, x < a.stride → y < a.height → a.get? x y = b.get? x y) : a = b := by
  have hsize : a.pixels.size = b.pixels.size := by
    rw [ha, hb, hstride, hheight]
  have hpixels : a.pixels = b.pixels := by
    apply Array.ext_getElem?
    intro i
    by_cases hi : i < a.stride.toNat * a.height.toNat
    · -- a position is that of a column in a row
      have hx : i % a.stride.toNat < a.stride.toNat :=
        Nat.mod_lt i (Nat.pos_of_mul_pos_right (Nat.zero_lt_of_lt hi))
      have hy : i / a.stride.toNat < a.height.toNat := Nat.div_lt_of_lt_mul hi
      have hword := h _ _ (ofNat_lt hx) (ofNat_lt hy)
      rw [get?_ofNat hx hy, get?_ofNat (hstride ▸ hx) (hheight ▸ hy), ← hstride,
        Nat.div_add_mod'] at hword
      exact hword
    · have hend : a.pixels.size ≤ i := ha ▸ Nat.le_of_not_lt hi
      rw [Array.getElem?_eq_none hend, Array.getElem?_eq_none (hsize ▸ hend)]
  cases a
  cases b
  cases hstride
  cases hheight
  cases hpixels
  rfl

theorem getD_of_get? {b : PixelBuffer} {x y word : UInt32} (h : b.get? x y = some word) :
    b.pixels.getD (y.toNat * b.stride.toNat + x.toNat) 0 = word := by
  unfold get? at h
  split at h
  · rw [Array.getD_eq_getD_getElem?, h, Option.getD_some]
  · cases h

end PixelBuffer

/-! ## What shows -/

namespace Capture

/-- Captures of one shape: all they may differ in is what is stored. -/
structure SameShape (a b : Capture) : Prop where
  stride_eq : a.stride = b.stride
  width_eq : a.width = b.width
  height_eq : a.height = b.height
  rowOrder_eq : a.rowOrder = b.rowOrder

/-- A position at which a buffer of the given size shows a pixel of the capture. -/
def Shows (c : Capture) (stride height x y : UInt32) : Prop :=
  x.toNat < c.columnsInto stride ∧ y.toNat < c.rowsInto height

/-- The stored bytes of the pixel that shows in column `x` of row `y`. -/
def shownBytes (c : Capture) (format : PixelFormat) (x y : UInt32) : List UInt8 :=
  slice c.data ((c.storedRow y.toNat * c.stride.toNat + x.toNat) * format.bytesPerPixel)
    format.bytesPerPixel

/-- The word that these bytes make. -/
def shownWord (c : Capture) (format : PixelFormat) (x y : UInt32) : UInt32 :=
  littleEndian (c.shownBytes format x y)

variable {a b c : Capture} {format : PixelFormat} {stride height x y : UInt32}

theorem SameShape.shows_iff (h : a.SameShape b) :
    b.Shows stride height x y ↔ a.Shows stride height x y := by
  unfold Shows columnsInto rowsInto
  rw [h.stride_eq, h.width_eq, h.height_eq]

/-- What shows has a place in the buffer. -/
theorem Shows.lt (h : c.Shows stride height x y) : x < stride ∧ y < height :=
  ⟨Nat.lt_of_lt_of_le h.1 (columnsInto_le c stride).1, Nat.lt_of_lt_of_le h.2 (Nat.min_le_left _ _)⟩

/-- What shows is expanded. -/
theorem shownAt_eq (format : PixelFormat) (h : c.Shows stride height x y) :
    c.shownAt format stride height x.toNat y.toNat = format.expand (c.shownWord format x y) := by
  rw [shownAt, if_pos ⟨h.1, h.2⟩]
  rfl

theorem shownAt_eq_zero (format : PixelFormat) (h : ¬ c.Shows stride height x y) :
    c.shownAt format stride height x.toNat y.toNat = 0 :=
  if_neg h

/-- All bytes of a pixel that shows are there. -/
theorem Complete.length_shownBytes (hc : c.Complete format) (h : c.Shows stride height x y) :
    (c.shownBytes format x y).length = format.bytesPerPixel := by
  have hrow : c.storedRow y.toNat < c.height.toNat :=
    storedRow_lt_of_lt (Nat.lt_of_lt_of_le h.2 (Nat.min_le_right _ _))
  have hcolumn : x.toNat + 1 ≤ c.stride.toNat :=
    Nat.le_trans h.1 (columnsInto_le c stride).2
  have hend : (c.storedRow y.toNat * c.stride.toNat + (x.toNat + 1)) * format.bytesPerPixel
      ≤ c.bytesNeeded format := Nat.mul_le_mul_right _ (row_end_le hrow hcolumn)
  apply length_slice
  rw [← Nat.succ_mul]
  exact Nat.le_trans hend hc.covered

/-- The word of a pixel that shows is one of its encoding. -/
theorem Complete.shownWord_lt (hc : c.Complete format) (h : c.Shows stride height x y) :
    (c.shownWord format x y).toNat < 256 ^ format.bytesPerPixel := by
  have hlength := hc.length_shownBytes h
  rw [← hlength]
  apply toNat_littleEndian_lt
  rw [hlength]
  exact format.bytesPerPixel_le

/-- **What shows of two captures is the same word exactly if it is stored alike.** -/
theorem shownAt_eq_iff (ha : a.Complete format) (hb : b.Complete format)
    (h : a.Shows stride height x y) (h' : b.Shows stride height x y) :
    a.shownAt format stride height x.toNat y.toNat = b.shownAt format stride height x.toNat y.toNat
      ↔ a.shownBytes format x y = b.shownBytes format x y := by
  rw [shownAt_eq format h, shownAt_eq format h',
    PixelFormat.expand_eq_iff (ha.shownWord_lt h) (hb.shownWord_lt h')]
  constructor
  · apply littleEndian_inj
    · rw [ha.length_shownBytes h, hb.length_shownBytes h']
    · rw [ha.length_shownBytes h]
      exact format.bytesPerPixel_le
  · exact congrArg littleEndian

/-- Two captures show something at the same positions if they are of one shape. -/
theorem shownAt_eq_of_shownBytes (ha : a.Complete format) (hb : b.Complete format)
    (hshape : a.SameShape b)
    (h : a.Shows stride height x y → a.shownBytes format x y = b.shownBytes format x y) :
    a.shownAt format stride height x.toNat y.toNat
      = b.shownAt format stride height x.toNat y.toNat := by
  by_cases hshows : a.Shows stride height x y
  · exact (shownAt_eq_iff ha hb hshows (hshape.shows_iff.mpr hshows)).mpr (h hshows)
  · rw [shownAt_eq_zero format hshows, shownAt_eq_zero format (mt hshape.shows_iff.mp hshows)]

end Capture

/-! ## What a score counts -/

namespace View

/-- The compared positions at which two arrays of words differ in colour. -/
def mismatches (v : View) (actual expected : Array UInt32) : Finset (ℕ × ℕ) :=
  (Finset.range v.width.toNat ×ˢ Finset.range v.height.toNat).filter fun (x, y) =>
    differsAt actual expected (v.index x y)

variable {v : View} {b actual expected : PixelBuffer} {x y p q : UInt32}

/-- A view of the upper rows of a buffer covers it. -/
theorem covers_of_le (hb : b.Sized) (hstride : v.stride = b.stride) (hwidth : v.width ≤ v.stride)
    (hheight : v.height ≤ b.height) : v.Covers b.pixels := by
  refine ⟨?_, hwidth⟩
  rw [words, hstride, show b.pixels.size = _ from hb]
  exact Nat.mul_le_mul_left _ hheight

/-- A compared position with two colours is a mismatch. -/
theorem mem_mismatches (hactual : v.stride = actual.stride) (hexpected : v.stride = expected.stride)
    (hp : actual.get? x y = some p) (hq : expected.get? x y = some q)
    (hpq : Pixel.colour p ≠ Pixel.colour q) (hx : x < v.width) (hy : y < v.height) :
    (x.toNat, y.toNat) ∈ v.mismatches actual.pixels expected.pixels := by
  have hcompared : (x.toNat, y.toNat) ∈ Finset.range v.width.toNat ×ˢ Finset.range v.height.toNat :=
    Finset.mem_product.mpr ⟨Finset.mem_range.mpr hx, Finset.mem_range.mpr hy⟩
  have hactual' : actual.pixels.getD (v.index x.toNat y.toNat) 0 = p := by
    rw [index, hactual]
    exact PixelBuffer.getD_of_get? hp
  have hexpected' : expected.pixels.getD (v.index x.toNat y.toNat) 0 = q := by
    rw [index, hexpected]
    exact PixelBuffer.getD_of_get? hq
  refine Finset.mem_filter.mpr ⟨hcompared, ?_⟩
  show differsAt actual.pixels expected.pixels (v.index x.toNat y.toNat) = true
  rw [differsAt, hactual', hexpected']
  exact bne_iff_ne.mpr hpq

end View

/-! ## Captures told apart -/

namespace Capture

variable {a b c : Capture} {format : PixelFormat} {stride height x y : UInt32}
  {actual expected form : PixelBuffer}

theorem Complete.size_of_normalize (hc : c.Complete format)
    (hform : c.normalize stride height = .ok form) :
    form.stride = stride ∧ form.height = height ∧ form.Sized := by
  obtain ⟨same, hsame, hsize⟩ := normalize_of_complete hc (room_of_normalize hform)
  cases hform.symm.trans hsame
  exact hsize

/-- Where a capture shows something, its canonical form has that, expanded. -/
theorem Complete.get?_of_shows (hc : c.Complete format)
    (hform : c.normalize stride height = .ok form) (h : c.Shows stride height x y) :
    form.get? x y = some (format.expand (c.shownWord format x y)) := by
  obtain ⟨hx, hy⟩ := h.lt
  rw [hc.get?_normalize hform hx hy, shownAt_eq format h]

/-- **The canonical forms are the same exactly if all that shows is stored alike.** -/
theorem Complete.eq_iff_shownBytes (ha : a.Complete format) (hb : b.Complete format)
    (hshape : a.SameShape b) (hactual : a.normalize stride height = .ok actual)
    (hexpected : b.normalize stride height = .ok expected) :
    actual = expected ↔ ∀ x y, a.Shows stride height x y →
      a.shownBytes format x y = b.shownBytes format x y := by
  constructor
  · rintro rfl x y hshows
    obtain ⟨hx, hy⟩ := hshows.lt
    have hword := ha.get?_normalize hactual hx hy
    rw [hb.get?_normalize hexpected hx hy, Option.some_inj] at hword
    exact (shownAt_eq_iff ha hb hshows (hshape.shows_iff.mpr hshows)).mp hword.symm
  · intro h
    obtain ⟨hstride, hheight, hsized⟩ := ha.size_of_normalize hactual
    obtain ⟨hstride', hheight', hsized'⟩ := hb.size_of_normalize hexpected
    apply PixelBuffer.eq_of_get?_eq hsized hsized' (hstride.trans hstride'.symm)
      (hheight.trans hheight'.symm)
    intro x y hx hy
    rw [hstride] at hx
    rw [hheight] at hy
    rw [ha.get?_normalize hactual hx hy, hb.get?_normalize hexpected hx hy,
      shownAt_eq_of_shownBytes ha hb hshape (h x y)]

/-- **Red, green and blue that are stored differently show in different colours.** -/
theorem Complete.colour_ne (ha : a.Complete format) (hb : b.Complete format)
    (h : a.Shows stride height x y) (h' : b.Shows stride height x y) {ch : Pixel.Channel}
    (hch : ch ≠ .alpha)
    (hstored : format.channel ch (a.shownWord format x y)
      ≠ format.channel ch (b.shownWord format x y)) :
    Pixel.colour (format.expand (a.shownWord format x y))
      ≠ Pixel.colour (format.expand (b.shownWord format x y)) := by
  intro hcolour
  have hsame := (PixelFormat.colour_expand_eq_iff (ha.shownWord_lt h) (hb.shownWord_lt h')).mp
    hcolour
  exact hstored (hsame ch hch)

/-- **What shows is told apart.**  Two complete captures of one format and one shape have canonical
forms at every size that a vector can hold, and these are the same exactly if every pixel that shows
is stored alike.  Where red, green or blue is stored differently in a pixel that shows, the canonical
forms differ in colour; and a score of the two whose view takes that position in counts it as a
mismatch.  At any other size neither of the two has a canonical form. -/
theorem normalize_eq_iff_shown {a b : Capture} {format : PixelFormat} (ha : a.Complete format)
    (hb : b.Complete format) (hshape : a.SameShape b) (stride height : UInt32) :
    (4 * (stride.toNat * height.toNat) ≤ vectorLimit →
      ∃ actual expected, a.normalize stride height = .ok actual ∧
        b.normalize stride height = .ok expected ∧
        (actual = expected ↔ ∀ x y, a.Shows stride height x y →
          a.shownBytes format x y = b.shownBytes format x y) ∧
        ∀ x y, a.Shows stride height x y → ∀ ch ≠ Pixel.Channel.alpha,
          format.channel ch (a.shownWord format x y) ≠ format.channel ch (b.shownWord format x y) →
          (∃ p q, actual.get? x y = some p ∧ expected.get? x y = some q ∧
            Pixel.colour p ≠ Pixel.colour q) ∧
          ∀ v : View, v.stride = stride → v.width ≤ v.stride → v.height ≤ height →
            x < v.width → y < v.height →
            ∃ score, Score.ofPixels actual.pixels expected.pixels v = .ok score ∧
              score.mismatched = (v.mismatches actual.pixels expected.pixels).card ∧
              (x.toNat, y.toNat) ∈ v.mismatches actual.pixels expected.pixels) ∧
    (vectorLimit < 4 * (stride.toNat * height.toNat) →
      a.normalize stride height = .error .overrun ∧
        b.normalize stride height = .error .overrun) := by
  refine ⟨fun hroom => ?_,
    fun hlong => ⟨normalize_of_overlong ha hlong, normalize_of_overlong hb hlong⟩⟩
  obtain ⟨actual, hactual, hstride, hheight, hsized⟩ := normalize_of_complete ha hroom
  obtain ⟨expected, hexpected, hstride', hheight', hsized'⟩ := normalize_of_complete hb hroom
  refine ⟨actual, expected, hactual, hexpected,
    ha.eq_iff_shownBytes hb hshape hactual hexpected, ?_⟩
  intro x y hshows ch hch hstored
  have hshows' := hshape.shows_iff.mpr hshows
  have hp := ha.get?_of_shows hactual hshows
  have hq := hb.get?_of_shows hexpected hshows'
  have hpq := ha.colour_ne hb hshows hshows' hch hstored
  refine ⟨⟨_, _, hp, hq, hpq⟩, ?_⟩
  intro v hv hwidth hrows hx hy
  have hactual' := View.covers_of_le hsized (hv.trans hstride.symm) hwidth (hheight ▸ hrows)
  have hexpected' := View.covers_of_le hsized' (hv.trans hstride'.symm) hwidth (hheight' ▸ hrows)
  refine ⟨_, Score.ofPixels_of_covers hactual' hexpected', ?_, ?_⟩
  · rw [Score.count_eq_card hactual' hexpected']
    rfl
  · exact View.mem_mismatches (hv.trans hstride.symm) (hv.trans hstride'.symm) hp hq hpq hx hy

/-- Two rows of one visible pixel in a stride of two, the lower row first. -/
def narrow (data : Array UInt8) : Capture := ⟨2, 1, 2, PixelFormat.rgba5551.tag, .bottomUp, data⟩

/-- What lies outside of the visible column makes no difference; a bit of red inside it does. -/
theorem normalize_eq_iff_shown_narrow :
    let a := narrow #[0x1F, 0x00, 0xAA, 0xAA, 0x00, 0x80, 0xBB, 0xBB]
    let b := narrow #[0x1F, 0x00, 0xCC, 0xCC, 0x00, 0x80, 0xDD, 0xDD]
    let c := narrow #[0x1E, 0x00, 0xAA, 0xAA, 0x00, 0x80, 0xBB, 0xBB]
    let v : View := ⟨2, 1, 2⟩
    a.Complete .rgba5551 ∧ b.Complete .rgba5551 ∧ c.Complete .rgba5551 ∧ a.SameShape b ∧
      a.SameShape c ∧ 4 * ((2 : UInt32).toNat * (2 : UInt32).toNat) ≤ vectorLimit ∧
      a.Shows 2 2 0 1 ∧
      PixelFormat.rgba5551.channel .red (a.shownWord .rgba5551 0 1)
        ≠ PixelFormat.rgba5551.channel .red (c.shownWord .rgba5551 0 1) ∧
      (∃ actual, a.normalize 2 2 = .ok actual ∧ b.normalize 2 2 = .ok actual) ∧
      ∃ actual expected score, a.normalize 2 2 = .ok actual ∧ c.normalize 2 2 = .ok expected ∧
        Score.ofPixels actual.pixels expected.pixels v = .ok score ∧
        score.mismatched = (v.mismatches actual.pixels expected.pixels).card ∧
        (0, 1) ∈ v.mismatches actual.pixels expected.pixels := by
  intro a b c v
  have ha : a.Complete .rgba5551 := by decide
  have hb : b.Complete .rgba5551 := by decide
  have hc : c.Complete .rgba5551 := by decide
  have hab : a.SameShape b := ⟨rfl, rfl, rfl, rfl⟩
  have hac : a.SameShape c := ⟨rfl, rfl, rfl, rfl⟩
  have hshows : a.Shows 2 2 0 1 := ⟨by decide, by decide⟩
  have hred : PixelFormat.rgba5551.channel .red (a.shownWord .rgba5551 0 1)
      ≠ PixelFormat.rgba5551.channel .red (c.shownWord .rgba5551 0 1) := by decide
  have hroom : 4 * ((2 : UInt32).toNat * (2 : UInt32).toNat) ≤ vectorLimit := by decide
  refine ⟨ha, hb, hc, hab, hac, hroom, hshows, hred, ?_, ?_⟩
  · obtain ⟨actual, expected, hactual, hexpected, hsame, -⟩ :=
      (normalize_eq_iff_shown ha hb hab 2 2).1 hroom
    have hstored : ∀ x y, a.Shows 2 2 x y →
        a.shownBytes .rgba5551 x y = b.shownBytes .rgba5551 x y := by
      rintro x y ⟨hx, hy⟩
      have hx' : x.toNat = 0 := Nat.lt_one_iff.mp hx
      have hy' : y.toNat < 2 := hy
      unfold shownBytes
      rw [hx']
      interval_cases y.toNat <;> decide
    exact ⟨actual, hactual, hsame.mpr hstored ▸ hexpected⟩
  · obtain ⟨actual, expected, hactual, hexpected, -, hdiffer⟩ :=
      (normalize_eq_iff_shown ha hc hac 2 2).1 hroom
    obtain ⟨-, hcounted⟩ := hdiffer 0 1 hshows .red (by decide) hred
    obtain ⟨score, hscore, hcount, hmem⟩ :=
      hcounted v rfl (by decide) (by decide) (by decide) (by decide)
    exact ⟨actual, expected, score, hactual, hexpected, hscore, hcount, hmem⟩

end Capture

end Golden
