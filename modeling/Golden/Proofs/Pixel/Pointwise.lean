import Golden.Proofs.Pixel.Canonical
import Golden.Proofs.Pixel.Row

/-!
# Golden.Proofs.Pixel.Pointwise — the canonical form of a capture, pixel by pixel

`Capture.normalize` works row by row, on slices.  What comes out of it is told by position: a pixel
of the buffer is the expanded pixel of the capture that shows there, where the capture shows
something, and zero everywhere else (`Capture.shownAt`).  The rows come in any order of the capture,
so the one that is read is the stored one (`Capture.storedRow`).

The loop is an induction on the rows that are copied (`getElem?_foldl_copyRow`).  A row is written
to places of its own, since the columns that are copied lie within the stride of the buffer; and
what is written there does not depend on what stood there before, since the capture has all bytes
of every pixel that is read.  That is where `RowInBounds` comes in: **every row that is copied is
read and written within bounds**, so no cut is ever short.

Together with the two refusals, an unknown format and a size that does not fit, and with an overrun
where no vector could hold the buffer, this is all that `normalize` can do
(`Capture.normalize_pointwise`).
-/

namespace Golden

namespace PixelFormat

/-- A tag names the format that has it. -/
theorem ofTag?_eq_some_iff {tag : UInt32} {format : PixelFormat} :
    ofTag? tag = some format ↔ format.tag = tag := by
  constructor
  · intro h
    simpa using List.find?_some h
  · rintro rfl
    exact ofTag?_tag format

theorem ofTag?_eq_none_iff {tag : UInt32} :
    ofTag? tag = none ↔ ∀ format : PixelFormat, format.tag ≠ tag := by
  rw [← Option.not_isSome_iff_eq_none, Option.isSome_iff_exists, not_exists]
  exact forall_congr' fun format => not_congr ofTag?_eq_some_iff

end PixelFormat

namespace Capture

/-- The canonical word of the stored pixel in column `x` of row `row`. -/
def pixelAt (c : Capture) (format : PixelFormat) (x row : Nat) : UInt32 :=
  format.expand (littleEndian
    (slice c.data ((row * c.stride.toNat + x) * format.bytesPerPixel) format.bytesPerPixel))

/-- What a buffer of the given size shows in column `x` of row `y`: the pixel of the capture there,
and zero in columns and rows that the capture does not have or does not show. -/
def shownAt (c : Capture) (format : PixelFormat) (stride height : UInt32) (x y : Nat) : UInt32 :=
  if x < c.columnsInto stride ∧ y < c.rowsInto height then c.pixelAt format x (c.storedRow y) else 0

/-- Copying the leftmost `columns` pixels of row `y` to a buffer stays within bounds: there are
enough rows to count from the last one, the bytes that are read are there, so are the words that are
written, and every position on the way can be addressed. -/
structure RowInBounds (c : Capture) (format : PixelFormat) (columns y : Nat) (b : PixelBuffer) :
    Prop where
  row_lt : y < c.height.toNat
  storedRow_lt : c.storedRow y < c.height.toNat
  read_le : c.storedRow y * c.stride.toNat * format.bytesPerPixel + columns * format.bytesPerPixel
    ≤ c.data.size
  read_lt : c.storedRow y * c.stride.toNat * format.bytesPerPixel + columns * format.bytesPerPixel
    < addressLimit
  write_le : y * b.stride.toNat + columns ≤ b.pixels.size
  write_lt : y * b.stride.toNat + columns < addressLimit

variable {c : Capture} {format : PixelFormat} {stride columns x y : Nat}

/-! ## Bounds -/

theorem columnsInto_le (c : Capture) (stride : UInt32) :
    c.columnsInto stride ≤ stride.toNat ∧ c.columnsInto stride ≤ c.stride.toNat := by
  unfold columnsInto
  omega

theorem storedRow_lt_of_lt (hy : y < c.height.toNat) : c.storedRow y < c.height.toNat := by
  unfold storedRow
  cases c.rowOrder with
  | topDown => exact hy
  | bottomUp =>
      show c.height.toNat - 1 - y < c.height.toNat
      omega

/-- The bytes of a stored row are among those that the geometry of the capture takes. -/
theorem read_le_bytesNeeded (hrow : c.storedRow y < c.height.toNat)
    (hcolumns : columns ≤ c.stride.toNat) :
    c.storedRow y * c.stride.toNat * format.bytesPerPixel + columns * format.bytesPerPixel
      ≤ c.bytesNeeded format := by
  rw [← Nat.add_mul]
  exact Nat.mul_le_mul_right _ (row_end_le hrow hcolumns)

theorem Complete.rowInBounds (h : c.Complete format) {stride height : UInt32} {b : PixelBuffer}
    (hstride : b.stride = stride) (hheight : b.height = height) (hsized : b.Sized)
    (hy : y < c.rowsInto height) : c.RowInBounds format (c.columnsInto stride) y b := by
  obtain ⟨hbuffer, hcapture⟩ := columnsInto_le c stride
  have hrow : y < c.height.toNat := Nat.lt_of_lt_of_le hy (Nat.min_le_right _ _)
  have htarget : y < b.height.toNat := by
    rw [hheight]
    exact Nat.lt_of_lt_of_le hy (Nat.min_le_left _ _)
  have hstored := storedRow_lt_of_lt hrow
  have hread : c.storedRow y * c.stride.toNat * format.bytesPerPixel
      + c.columnsInto stride * format.bytesPerPixel ≤ c.bytesNeeded format :=
    read_le_bytesNeeded hstored hcapture
  have hwrite : y * b.stride.toNat + c.columnsInto stride ≤ b.pixels.size := by
    rw [show b.pixels.size = _ from hsized]
    exact row_end_le htarget (hstride ▸ hbuffer)
  have hsize : b.pixels.size < addressLimit := by
    rw [show b.pixels.size = _ from hsized]
    calc b.stride.toNat * b.height.toNat ≤ (2 ^ 32 - 1) * (2 ^ 32 - 1) :=
          Nat.mul_le_mul (Nat.le_pred_of_lt b.stride.toNat_lt) (Nat.le_pred_of_lt b.height.toNat_lt)
      _ < addressLimit := by decide
  exact {
    row_lt := hrow
    storedRow_lt := hstored
    read_le := Nat.le_trans hread h.covered
    read_lt := Nat.lt_of_le_of_lt hread h.addressable
    write_le := hwrite
    write_lt := Nat.lt_of_le_of_lt hwrite hsize }

/-! ## One row -/

/-- Copying a row leaves all words alone that are not in the copied columns of that row. -/
theorem getElem?_copyRow_of_notMem {words : Array UInt32} {i : Nat}
    (h : i < y * stride ∨ y * stride + columns ≤ i) :
    (c.copyRow format stride columns words y)[i]? = words[i]? := by
  have hlength : (slice words (y * stride) columns).length ≤ columns := by
    rw [slice_eq]
    exact List.length_take_le _ _
  rw [copyRow, getElem?_overwrite_of_notMem]
  rw [PixelFormat.length_convertRow]
  omega

/-- **One pixel of a copied row** is the pixel of the stored row in that column. -/
theorem getElem?_copyRow (h : c.Complete format) {words : Array UInt32}
    (hrow : c.storedRow y < c.height.toNat) (hcolumns : columns ≤ c.stride.toNat)
    (hwords : y * stride + columns ≤ words.size) (hx : x < columns) :
    (c.copyRow format stride columns words y)[y * stride + x]?
      = some (c.pixelAt format x (c.storedRow y)) := by
  have hold : (slice words (y * stride) columns).length = columns := length_slice words hwords
  have hread : (c.rowBytes format columns y).length = columns * format.bytesPerPixel :=
    length_slice c.data (Nat.le_trans (read_le_bytesNeeded hrow hcolumns) h.covered)
  have hpixel : (x + 1) * format.bytesPerPixel ≤ columns * format.bytesPerPixel :=
    Nat.mul_le_mul_right _ hx
  have hx' : x < (slice words (y * stride) columns).length := by rw [hold]; exact hx
  rw [copyRow, getElem?_overwrite_add (by rw [PixelFormat.length_convertRow]; exact hx') (by omega),
    PixelFormat.getElem?_convertRow format hx', if_pos (by rw [hread]; exact hpixel)]
  rw [Nat.succ_mul] at hpixel
  rw [rowBytes, take_drop_slice _ hpixel, pixelAt, Nat.add_mul]

/-! ## All rows -/

/-- **All rows**, by induction on those that are copied: a word is the pixel of the stored row if
its row and its column are copied, and what it was if not. -/
theorem getElem?_foldl_copyRow (h : c.Complete format) {rows : List Nat} {words : Array UInt32}
    (hcapture : columns ≤ c.stride.toNat) (hbuffer : columns ≤ stride)
    (hrows : ∀ row ∈ rows, c.storedRow row < c.height.toNat ∧ row * stride + columns ≤ words.size)
    (hx : x < stride) :
    (rows.foldl (c.copyRow format stride columns) words)[y * stride + x]?
      = if y ∈ rows ∧ x < columns then some (c.pixelAt format x (c.storedRow y))
        else words[y * stride + x]? := by
  induction rows generalizing words with
  | nil => simp
  | cons row rows ih =>
      have hlater : ∀ r ∈ rows, c.storedRow r < c.height.toNat
          ∧ r * stride + columns ≤ (c.copyRow format stride columns words row).size := by
        intro r hr
        rw [size_copyRow]
        exact hrows r (List.mem_cons_of_mem _ hr)
      rw [List.foldl_cons, ih hlater]
      by_cases hmem : y ∈ rows ∧ x < columns
      · rw [if_pos hmem, if_pos ⟨List.mem_cons_of_mem _ hmem.1, hmem.2⟩]
      · rw [if_neg hmem]
        by_cases hcopied : y = row ∧ x < columns
        · obtain ⟨rfl, hcolumn⟩ := hcopied
          obtain ⟨hstored, hwords⟩ := hrows y List.mem_cons_self
          rw [if_pos ⟨List.mem_cons_self, hcolumn⟩,
            getElem?_copyRow h hstored hcapture hwords hcolumn]
        · -- neither this row nor a later one writes here
          have hnone : ¬ (y ∈ row :: rows ∧ x < columns) := by
            rintro ⟨hy, hcolumn⟩
            rcases List.mem_cons.mp hy with heq | hin
            · exact hcopied ⟨heq, hcolumn⟩
            · exact hmem ⟨hin, hcolumn⟩
          rw [if_neg hnone]
          apply getElem?_copyRow_of_notMem
          by_cases hy : y = row
          · subst hy
            right
            have hcolumn : ¬ x < columns := fun hlt => hcopied ⟨rfl, hlt⟩
            omega
          · exact row_disjoint hy hx hbuffer

/-! ## The whole buffer -/

theorem mem_rowRange {columns rows y : Nat} :
    y ∈ rowRange columns rows ↔ columns ≠ 0 ∧ y < rows := by
  unfold rowRange
  split
  · rename_i hzero
    simp [hzero]
  · rename_i hne
    simp [hne]

/-- A position in a buffer of zeros. -/
theorem getElem?_blank {stride height : UInt32} (hx : x < stride.toNat) (hy : y < height.toNat) :
    (PixelBuffer.blank stride height).pixels[y * stride.toNat + x]? = some 0 := by
  have hin : y * stride.toNat + (x + 1) ≤ stride.toNat * height.toNat := row_end_le hy hx
  rw [PixelBuffer.blank, Array.getElem?_replicate, if_pos (by omega)]

/-- **The canonical form of a complete capture**, pixel by pixel. -/
theorem Complete.get?_normalize (h : c.Complete format) {stride height : UInt32} {b : PixelBuffer}
    (hb : c.normalize stride height = .ok b) {x y : UInt32} (hx : x < stride) (hy : y < height) :
    b.get? x y = some (c.shownAt format stride height x.toNat y.toNat) := by
  have hx' : x.toNat < stride.toNat := hx
  have hy' : y.toNat < height.toNat := hy
  obtain ⟨hbuffer, hcapture⟩ := columnsInto_le c stride
  have hroom := room_of_normalize hb
  rw [normalize, checkedFormat_eq_ok_iff.mpr h, PixelBuffer.zeroed_of_le hroom] at hb
  cases hb
  have hrows : ∀ row ∈ rowRange (c.columnsInto stride) (c.rowsInto height),
      c.storedRow row < c.height.toNat ∧
        row * stride.toNat + c.columnsInto stride
          ≤ (PixelBuffer.blank stride height).pixels.size := by
    intro row hmem
    have hrow := (mem_rowRange.mp hmem).2
    constructor
    · exact storedRow_lt_of_lt (Nat.lt_of_lt_of_le hrow (Nat.min_le_right _ _))
    · rw [PixelBuffer.blank, Array.size_replicate]
      exact row_end_le (Nat.lt_of_lt_of_le hrow (Nat.min_le_left _ _)) hbuffer
  have hcopied : y.toNat ∈ rowRange (c.columnsInto stride) (c.rowsInto height)
      ∧ x.toNat < c.columnsInto stride
      ↔ x.toNat < c.columnsInto stride ∧ y.toNat < c.rowsInto height := by
    rw [mem_rowRange]
    omega
  rw [PixelBuffer.get?, if_pos ⟨hx, hy⟩]
  show (List.foldl _ (PixelBuffer.blank stride height).pixels _)[_ * stride.toNat + _]? = _
  rw [getElem?_foldl_copyRow h hcapture hbuffer hrows hx', getElem?_blank hx' hy', shownAt]
  simp only [hcopied]
  split <;> rfl

/-! ## Refusals -/

theorem normalize_of_unknown (h : c.format? = none) (stride height : UInt32) :
    c.normalize stride height = .error (.failure (.unknownFormat c.tag)) :=
  normalize_eq_error (by rw [checkedFormat, h]) stride height

/-- A capture that takes more bytes than can be addressed, or than it has, is refused for that. -/
theorem normalize_of_size (hknown : c.format? = some format)
    (hsize : addressLimit ≤ c.bytesNeeded format ∨ c.data.size < c.bytesNeeded format)
    (stride height : UInt32) :
    ∃ problem, c.normalize stride height = .error (.failure (.buffer problem)) := by
  by_cases hlimit : addressLimit ≤ c.bytesNeeded format
  · refine ⟨.captureTooLarge c.stride c.height format, normalize_eq_error ?_ stride height⟩
    simp only [checkedFormat, hknown, if_pos hlimit]
  · have hshort : c.data.size < c.bytesNeeded format := hsize.resolve_left hlimit
    refine ⟨.captureTooShort c.data.size c.stride c.height format,
      normalize_eq_error ?_ stride height⟩
    simp only [checkedFormat, hknown, if_neg hlimit, if_pos hshort]

/-- A capture in a known format is complete, or there is something wrong with its size. -/
theorem complete_or_size (hknown : c.format? = some format) :
    c.Complete format ∨ addressLimit ≤ c.bytesNeeded format
      ∨ c.data.size < c.bytesNeeded format := by
  rcases Nat.lt_or_ge (c.bytesNeeded format) addressLimit with haddressable | hlimit
  · rcases Nat.lt_or_ge c.data.size (c.bytesNeeded format) with hshort | hcovered
    · exact Or.inr (Or.inr hshort)
    · exact Or.inl ⟨hknown, haddressable, hcovered⟩
  · exact Or.inr (Or.inl hlimit)

/-- Of a complete capture there is a canonical form or an overrun, and nothing is refused. -/
theorem Complete.normalize_ne_failure (h : c.Complete format) (stride height : UInt32)
    (failure : Failure) : c.normalize stride height ≠ .error (.failure failure) := by
  intro hrefused
  rcases Nat.lt_or_ge vectorLimit (4 * (stride.toNat * height.toNat)) with hlong | hroom
  · rw [normalize_of_overlong h hlong] at hrefused
    cases hrefused
  · obtain ⟨b, hb, -⟩ := normalize_of_complete h hroom
    rw [hb] at hrefused
    cases hrefused

/-- **What the canonical form of a capture is, at every size.**  A tag that names no format is
refused as unknown, and nothing else is.  In a format that the tag names, the capture is refused for
its size exactly when the bytes its geometry takes cannot be addressed or are not all there.
Otherwise there is a canonical form at every size that a vector can hold: it has the stride and the
height that were asked for and as many words as these promise, at every position it has the pixel
that the capture shows there or zero, and every row was read and written within bounds.  Any other
size is an overrun, and nothing else is. -/
theorem normalize_pointwise (c : Capture) (stride height : UInt32) :
    (c.normalize stride height = .error (.failure (.unknownFormat c.tag))
      ↔ ∀ format : PixelFormat, format.tag ≠ c.tag) ∧
    ∀ format : PixelFormat, format.tag = c.tag →
      ((∃ problem, c.normalize stride height = .error (.failure (.buffer problem)))
        ↔ addressLimit ≤ c.bytesNeeded format ∨ c.data.size < c.bytesNeeded format) ∧
      (c.bytesNeeded format < addressLimit → c.bytesNeeded format ≤ c.data.size →
        (c.normalize stride height = .error .overrun
          ↔ vectorLimit < 4 * (stride.toNat * height.toNat)) ∧
        (4 * (stride.toNat * height.toNat) ≤ vectorLimit →
          ∃ b, c.normalize stride height = .ok b ∧ b.stride = stride ∧ b.height = height ∧
            b.pixels.size = stride.toNat * height.toNat ∧
            (∀ x y : UInt32, x < stride → y < height →
              b.get? x y = some (c.shownAt format stride height x.toNat y.toNat)) ∧
            ∀ y < c.rowsInto height, c.RowInBounds format (c.columnsInto stride) y b)) := by
  refine ⟨⟨?unknown, ?refused⟩, ?known⟩
  case unknown =>
    intro hunknown format htag
    have hknown : c.format? = some format := PixelFormat.ofTag?_eq_some_iff.mpr htag
    rcases complete_or_size hknown with hcomplete | hsize
    · exact hcomplete.normalize_ne_failure stride height _ hunknown
    · obtain ⟨problem, hproblem⟩ := normalize_of_size hknown hsize stride height
      rw [hproblem] at hunknown
      cases hunknown
  case refused =>
    intro hnone
    exact normalize_of_unknown (PixelFormat.ofTag?_eq_none_iff.mpr hnone) stride height
  case known =>
    intro format htag
    have hknown : c.format? = some format := PixelFormat.ofTag?_eq_some_iff.mpr htag
    refine ⟨⟨?_, fun hsize => normalize_of_size hknown hsize stride height⟩, ?_⟩
    · rintro ⟨problem, hproblem⟩
      rcases complete_or_size hknown with hcomplete | hsize
      · exact absurd hproblem (hcomplete.normalize_ne_failure stride height _)
      · exact hsize
    · intro haddressable hcovered
      have hcomplete : c.Complete format := ⟨hknown, haddressable, hcovered⟩
      refine ⟨⟨fun hoverrun => (normalize_eq_overrun_iff.mp hoverrun).2,
        normalize_of_overlong hcomplete⟩, ?_⟩
      · intro hroom
        obtain ⟨b, hb, hstride, hheight, hsized⟩ := normalize_of_complete hcomplete hroom
        have hsize : b.pixels.size = stride.toNat * height.toNat := by
          rw [← hstride, ← hheight]
          exact hsized
        refine ⟨b, hb, hstride, hheight, hsize, ?_, ?_⟩
        · intro x y hx hy
          exact hcomplete.get?_normalize hb hx hy
        · intro y hy
          exact hcomplete.rowInBounds hstride hheight hsized hy

/-- A bottom-up capture that claims more visible columns than it stores, asked for at a size that is
wider and lower: the second stored row shows on top, and zero where the capture has no column. -/
theorem normalize_bottomUp_crop :
    let c : Capture := ⟨1, 9, 2, PixelFormat.rgb565.tag, .bottomUp, #[0x1F, 0x00, 0x00, 0xF8, 0xAA]⟩
    PixelFormat.rgb565.tag = c.tag ∧ c.bytesNeeded .rgb565 < addressLimit ∧
      c.bytesNeeded .rgb565 ≤ c.data.size ∧
      4 * ((2 : UInt32).toNat * (1 : UInt32).toNat) ≤ vectorLimit ∧
      ∃ b, c.normalize 2 1 = .ok b ∧ b.get? 0 0 = some 0xFF0000FF ∧ b.get? 1 0 = some 0 := by
  intro c
  have haddressable : c.bytesNeeded .rgb565 < addressLimit := by decide
  have hcovered : c.bytesNeeded .rgb565 ≤ c.data.size := by decide
  have hroom : 4 * ((2 : UInt32).toNat * (1 : UInt32).toNat) ≤ vectorLimit := by decide
  obtain ⟨b, hb, -, -, -, hget, -⟩ :=
    (((normalize_pointwise c 2 1).2 .rgb565 rfl).2 haddressable hcovered).2 hroom
  refine ⟨rfl, haddressable, hcovered, hroom, b, hb, ?_, ?_⟩
  · exact (hget 0 0 (by decide) (by decide)).trans (by decide)
  · exact (hget 1 0 (by decide) (by decide)).trans (by decide)

end Capture

end Golden
