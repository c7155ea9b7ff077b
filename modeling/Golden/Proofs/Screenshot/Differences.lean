import Golden.Proofs.Pixel.Canonical
import Golden.Screenshot.Score
import Mathlib.Algebra.BigOperators.Group.Finset.Piecewise
import Mathlib.Algebra.BigOperators.Group.Finset.Sigma

/-!
# Golden.Proofs.Screenshot.Differences — what a score counts

A score is counted row by row over two flat arrays.  What it means is told by positions.  Two arrays
that cover a view (`View.Covers`) are what its checks accept (`View.check_eq_ok_iff`); a compared row
is then the row of the picture, position by position (`View.Covers.row_eq_map`), the rows add up
(`Score.foldl_addRow`), and the score is the number of positions of the viewed rectangle at which
the words differ in colour, beside the number of all positions (`Score.count_eq_card`).

Buffers with the view's own stride and height and all the words these promise (`View.Fits`) cover
it.  For them the same number is that of the pixels whose colours differ (`View.differences`,
`Score.count_eq`).
-/

namespace Golden

namespace View

/-- An array of words that a view can be read from: it holds all the words the view takes, and the
compared columns lie in the stride. -/
structure Covers (v : View) (pixels : Array UInt32) : Prop where
  size_le : v.words ≤ pixels.size
  width_le : v.width ≤ v.stride

instance (v : View) (pixels : Array UInt32) : Decidable (v.Covers pixels) :=
  decidable_of_iff (v.words ≤ pixels.size ∧ v.width ≤ v.stride)
    ⟨fun h => ⟨h.1, h.2⟩, fun h => ⟨h.size_le, h.width_le⟩⟩

/-- No view takes more words than can be addressed. -/
theorem words_lt (v : View) : v.words < addressLimit :=
  calc v.words ≤ v.stride.toNat * 2 ^ 32 := Nat.mul_le_mul_left _ v.height.toNat_lt.le
    _ < 2 ^ 32 * 2 ^ 32 := Nat.mul_lt_mul_of_pos_right v.stride.toNat_lt (by decide)
    _ = addressLimit := rfl

variable {v : View} {pixels actual expected : Array UInt32}

/-! ## What the checks of a view accept -/

theorem problem?_eq_none_iff : v.problem? pixels.size = none ↔ v.Covers pixels := by
  rw [problem?, if_neg (Nat.not_le_of_lt v.words_lt)]
  constructor
  · intro h
    split at h
    · cases h
    · rename_i hsize
      split at h
      · cases h
      · rename_i hwidth
        exact ⟨Nat.le_of_not_lt hsize, UInt32.not_lt.mp hwidth⟩
  · rintro ⟨hsize, hwidth⟩
    rw [if_neg (Nat.not_lt_of_le hsize), if_neg (UInt32.not_lt.mpr hwidth)]

theorem check_eq_ok_iff : v.check pixels = .ok () ↔ v.Covers pixels := by
  rw [← problem?_eq_none_iff, check]
  cases v.problem? pixels.size <;> simp

theorem exists_check_eq_error (h : ¬ v.Covers pixels) :
    ∃ problem, v.check pixels = .error (.buffer problem) := by
  rw [← problem?_eq_none_iff, ← ne_eq, Option.ne_none_iff_exists'] at h
  obtain ⟨problem, hproblem⟩ := h
  exact ⟨problem, by rw [check, hproblem]⟩

/-! ## Rows by position -/

namespace Covers

/-- A compared position is a position of the array. -/
theorem index_lt (h : v.Covers pixels) {x y : ℕ} (hx : x < v.width.toNat)
    (hy : y < v.height.toNat) : v.index x y < pixels.size :=
  Nat.lt_of_lt_of_le (View.index_lt h.width_le hx hy) h.size_le

/-- A compared row, position by position. -/
theorem row_eq_map (h : v.Covers pixels) {y : ℕ} (hy : y < v.height.toNat) :
    v.row pixels y = (List.range v.width.toNat).map fun x => pixels.getD (v.index x y) 0 := by
  have hend : y * v.stride.toNat + v.width.toNat ≤ pixels.size :=
    calc y * v.stride.toNat + v.width.toNat ≤ y * v.stride.toNat + v.stride.toNat :=
          Nat.add_le_add_left h.width_le _
      _ = v.stride.toNat * (y + 1) := by rw [Nat.mul_succ, Nat.mul_comm]
      _ ≤ v.words := Nat.mul_le_mul_left _ hy
      _ ≤ pixels.size := h.size_le
  apply List.ext_getElem
  · simp only [row, slice, Array.length_toList, Array.size_extract, List.length_map,
      List.length_range]
    omega
  · intro x hx hx'
    rw [List.length_map, List.length_range] at hx'
    simp only [row, slice, Array.getElem_toList, Array.getElem_extract, List.getElem_map,
      List.getElem_range]
    rw [Array.getD_eq_getD_getElem?, Array.getElem?_eq_getElem (h.index_lt hx' hy),
      Option.getD_some]
    rfl

/-- The differing words of a row are counted by their columns. -/
theorem rowMismatches_eq_sum (ha : v.Covers actual) (he : v.Covers expected) {y : ℕ}
    (hy : y < v.height.toNat) :
    v.rowMismatches actual expected y
      = ∑ x ∈ Finset.range v.width.toNat,
          if differsAt actual expected (v.index x y) then 1 else 0 := by
  rw [rowMismatches, ha.row_eq_map hy, he.row_eq_map hy, List.zip_map', List.countP_map]
  -- both sides count the same columns, one in a list and one in a set
  rw [← Finset.card_filter, Finset.card_def, Finset.filter_val, Finset.range_val,
    ← Multiset.countP_eq_card_filter, Multiset.range, Multiset.coe_countP]
  apply List.countP_congr
  intro x _
  simp [differsAt]

end Covers

end View

namespace Score

theorem foldl_addRow (v : View) (pixels reference : Array UInt32) (s : Score) (rows : ℕ) :
    (List.range rows).foldl (addRow v pixels reference) s
      = ⟨s.mismatched + ∑ y ∈ Finset.range rows, v.rowMismatches pixels reference y,
          s.compared + rows * v.width.toNat⟩ := by
  induction rows with
  | zero => simp
  | succ rows ih =>
      rw [List.range_succ, List.foldl_append, ih, List.foldl_cons, List.foldl_nil, addRow,
        Finset.sum_range_succ, Nat.succ_mul, Nat.add_assoc, Nat.add_assoc]

/-- **A score counts the positions at which the words differ in colour**, and all positions beside
them. -/
theorem count_eq_card {v : View} {actual expected : Array UInt32} (ha : v.Covers actual)
    (he : v.Covers expected) :
    count actual expected v
      = ⟨((Finset.range v.width.toNat ×ˢ Finset.range v.height.toNat).filter fun (x, y) =>
            View.differsAt actual expected (v.index x y)).card,
          v.width.toNat * v.height.toNat⟩ := by
  by_cases hcolumns : v.width.toNat = 0
  · -- without columns no row is gone through
    rw [count, rowRange, if_pos hcolumns, hcolumns]
    simp
  · rw [count, rowRange, if_neg hcolumns, foldl_addRow, Nat.zero_add, Nat.zero_add]
    rw [Finset.card_filter, Finset.sum_product_right, Nat.mul_comm]
    congr 1
    apply Finset.sum_congr rfl
    intro y hy
    exact ha.rowMismatches_eq_sum he (Finset.mem_range.mp hy)

/-- What covers the view is scored. -/
theorem ofPixels_of_covers {v : View} {actual expected : Array UInt32} (ha : v.Covers actual)
    (he : v.Covers expected) : ofPixels actual expected v = .ok (count actual expected v) := by
  rw [ofPixels, View.check_eq_ok_iff.mpr ha, View.check_eq_ok_iff.mpr he]
  rfl

end Score

/-! ## Buffers of the view's size -/

namespace PixelBuffer

/-- The colour in column `x` of row `y`, if the buffer has a pixel there. -/
def colour? (b : PixelBuffer) (x y : ℕ) : Option UInt32 :=
  (b.get? (.ofNat x) (.ofNat y)).map Pixel.colour

/-- A number below a size is below it as a word. -/
theorem ofNat_lt {n : ℕ} {size : UInt32} (h : n < size.toNat) : UInt32.ofNat n < size := by
  rw [UInt32.lt_iff_toNat_lt, UInt32.toNat_ofNat_of_lt' (Nat.lt_trans h size.toNat_lt)]
  exact h

/-- The word at a position of the buffer. -/
theorem get?_ofNat {b : PixelBuffer} {x y : ℕ} (hx : x < b.stride.toNat) (hy : y < b.height.toNat) :
    b.get? (.ofNat x) (.ofNat y) = b.pixels[y * b.stride.toNat + x]? := by
  rw [get?, if_pos ⟨ofNat_lt hx, ofNat_lt hy⟩,
    UInt32.toNat_ofNat_of_lt' (Nat.lt_trans hx b.stride.toNat_lt),
    UInt32.toNat_ofNat_of_lt' (Nat.lt_trans hy b.height.toNat_lt)]

end PixelBuffer

namespace View

/-- A buffer that has exactly the words the view takes. -/
structure Fits (v : View) (b : PixelBuffer) : Prop where
  stride_eq : b.stride = v.stride
  height_eq : b.height = v.height
  sized : b.Sized

/-- The positions of the viewed rectangle at which the colours of two buffers differ. -/
def differences (v : View) (actual expected : PixelBuffer) : Finset (ℕ × ℕ) :=
  (Finset.range v.width.toNat ×ˢ Finset.range v.height.toNat).filter fun (x, y) =>
    actual.colour? x y ≠ expected.colour? x y

/-- Nothing differs from itself. -/
theorem differences_self (v : View) (b : PixelBuffer) : v.differences b b = ∅ := by
  rw [differences, Finset.filter_eq_empty_iff]
  intro position _ hne
  exact hne rfl

variable {v : View} {b : PixelBuffer}

theorem Fits.size_eq (h : v.Fits b) : b.pixels.size = v.words := by
  rw [show b.pixels.size = _ from h.sized, h.stride_eq, h.height_eq, words]

theorem Fits.covers (h : v.Fits b) (hwidth : v.width ≤ v.stride) : v.Covers b.pixels :=
  ⟨h.size_eq.ge, hwidth⟩

/-- Within the view, the colour of a position is that of the word at its index. -/
theorem Fits.colour?_eq (h : v.Fits b) (hwidth : v.width ≤ v.stride) {x y : ℕ}
    (hx : x < v.width.toNat) (hy : y < v.height.toNat) :
    b.colour? x y = some (Pixel.colour (b.pixels.getD (v.index x y) 0)) := by
  have hxb : x < b.stride.toNat := by
    rw [h.stride_eq]
    exact Nat.lt_of_lt_of_le hx hwidth
  have hyb : y < b.height.toNat := by
    rw [h.height_eq]
    exact hy
  rw [PixelBuffer.colour?, PixelBuffer.get?_ofNat hxb hyb, h.stride_eq, ← index]
  rw [Array.getD_eq_getD_getElem?, Array.getElem?_eq_getElem ((h.covers hwidth).index_lt hx hy),
    Option.map_some, Option.getD_some]

end View

/-- **For buffers of the view's size a score counts the pixels whose colours differ.** -/
theorem Score.count_eq {v : View} {actual expected : PixelBuffer} (ha : v.Fits actual)
    (he : v.Fits expected) (hwidth : v.width ≤ v.stride) :
    count actual.pixels expected.pixels v
      = ⟨(v.differences actual expected).card, v.width.toNat * v.height.toNat⟩ := by
  rw [count_eq_card (ha.covers hwidth) (he.covers hwidth), View.differences]
  congr 2
  apply Finset.filter_congr
  rintro ⟨x, y⟩ hposition
  obtain ⟨hx, hy⟩ := Finset.mem_product.mp hposition
  rw [Finset.mem_range] at hx hy
  dsimp only
  rw [ha.colour?_eq hwidth hx hy, he.colour?_eq hwidth hx hy]
  simp [View.differsAt]

end Golden
