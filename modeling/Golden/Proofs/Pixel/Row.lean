import Golden.Pixel.Buffer

/-!
# Golden.Proofs.Pixel.Row — one row, pixel by pixel

A buffer keeps its rows one behind the other, each within a stride of its own, so that positions in
different rows differ (`row_disjoint`).  Converting a row and putting it over the words of a buffer
are recursions along the row; here both are told by position.  One step of the former puts the first
word and goes on behind it (`PixelFormat.convertRow_cons`), and a source that is too short for a
pixel changes nothing (`PixelFormat.convertRow_of_short`).  So word `k` of a converted row is the
expanded source pixel `k` if the source has all bytes of it, and what stood there before if not
(`PixelFormat.getElem?_convertRow`).  A word put over others is found at its place
(`getElem?_overwrite_add`), and everything in front of the row or behind it stays
(`getElem?_overwrite_of_notMem`).
-/

namespace Golden

/-! ## Rows in a flat array -/

/-- The end of a row lies within the rows. -/
theorem row_end_le {row rows columns stride : Nat} (hrow : row < rows) (hcolumns : columns ≤ stride) :
    row * stride + columns ≤ stride * rows := by
  calc row * stride + columns ≤ row * stride + stride := Nat.add_le_add_left hcolumns _
    _ = stride * (row + 1) := by rw [Nat.mul_succ, Nat.mul_comm]
    _ ≤ stride * rows := Nat.mul_le_mul_left _ hrow

/-- Different rows of a buffer have no place in common. -/
theorem row_disjoint {y y' x columns stride : Nat} (hne : y ≠ y') (hx : x < stride) (hcolumns : columns ≤ stride) :
    y * stride + x < y' * stride ∨ y' * stride + columns ≤ y * stride + x := by
  rcases Nat.lt_or_gt_of_ne hne with hlt | hgt
  · left
    have hrows : (y + 1) * stride ≤ y' * stride := Nat.mul_le_mul_right _ hlt
    rw [Nat.succ_mul] at hrows
    omega
  · right
    have hrows : (y' + 1) * stride ≤ y * stride := Nat.mul_le_mul_right _ hgt
    rw [Nat.succ_mul] at hrows
    omega

/-! ## Parts of an array -/

section Slice

variable {α : Type} (entries : Array α)

theorem slice_eq (start count : Nat) :
    slice entries start count = (entries.toList.drop start).take count := by
  rw [slice, Array.toList_extract, List.extract_eq_take_drop, Nat.add_sub_cancel_left]

theorem length_slice {start count : Nat} (h : start + count ≤ entries.size) :
    (slice entries start count).length = count := by
  rw [slice_eq, List.length_take, List.length_drop, Array.length_toList]
  omega

/-- A part of a part is a part. -/
theorem take_drop_slice {start count offset size : Nat} (h : offset + size ≤ count) :
    ((slice entries start count).drop offset).take size = slice entries (start + offset) size := by
  have hinside : size ≤ count - offset := by omega
  rw [slice_eq, slice_eq, List.drop_take, List.take_take, List.drop_drop, Nat.min_eq_left hinside]

end Slice

/-! ## Putting words over others -/

/-- Words in front of those put over a buffer, and words behind them, stay. -/
theorem getElem?_overwrite_of_notMem {words : Array UInt32} {start i : Nat} {row : List UInt32}
    (h : i < start ∨ start + row.length ≤ i) : (overwrite words start row)[i]? = words[i]? := by
  induction row generalizing words start with
  | nil => rfl
  | cons word rest ih =>
      rw [List.length_cons] at h
      have hne : start ≠ i := by omega
      rw [overwrite, ih (by omega), Array.getElem?_setIfInBounds_ne hne]

/-- A word put over a buffer is found at its place, if the buffer has that place. -/
theorem getElem?_overwrite_add {words : Array UInt32} {start k : Nat} {row : List UInt32}
    (hrow : k < row.length) (hwords : start + k < words.size) :
    (overwrite words start row)[start + k]? = row[k]? := by
  induction row generalizing words start k with
  | nil => exact absurd hrow (Nat.not_lt_zero k)
  | cons word rest ih =>
      rw [overwrite]
      cases k with
      | zero =>
          have hplace : start < words.size := hwords
          show (overwrite (words.setIfInBounds start word) (start + 1) rest)[start]? = some word
          rw [getElem?_overwrite_of_notMem (Or.inl (Nat.lt_succ_self start)),
            Array.getElem?_setIfInBounds_self_of_lt hplace]
      | succ k =>
          have hnext : start + 1 + k < (words.setIfInBounds start word).size := by
            rw [Array.size_setIfInBounds]
            omega
          have hplace : start + (k + 1) = start + 1 + k := by omega
          rw [hplace, ih (Nat.lt_of_succ_lt_succ hrow) hnext, List.getElem?_cons_succ]

/-! ## Converting a row -/

namespace PixelFormat

variable {format : PixelFormat} {source : List UInt8}

/-- The first pixel goes over the first word, and the others over the rest of the row. -/
theorem convertRow_cons (h : format.bytesPerPixel ≤ source.length) (old : UInt32)
    (rest : List UInt32) :
    format.convertRow source (old :: rest)
      = format.expand (littleEndian (source.take format.bytesPerPixel))
        :: format.convertRow (source.drop format.bytesPerPixel) rest := by
  rw [convertRow]
  exact if_pos (List.length_take_of_le h)

/-- A source too short for a pixel changes nothing. -/
theorem convertRow_of_short (h : source.length < format.bytesPerPixel) (row : List UInt32) :
    format.convertRow source row = row := by
  cases row with
  | nil => rfl
  | cons old rest =>
      have hshort : ¬ (source.take format.bytesPerPixel).length = format.bytesPerPixel := by
        rw [List.length_take]
        omega
      rw [convertRow]
      exact if_neg hshort

variable (format) in
/-- **One converted pixel**: the canonical word of source pixel `k` if the source has all its bytes,
and the word that stood there if it has not. -/
theorem getElem?_convertRow {row : List UInt32} {k : Nat} (hk : k < row.length) :
    (format.convertRow source row)[k]?
      = if (k + 1) * format.bytesPerPixel ≤ source.length then
          some (format.expand
            (littleEndian ((source.drop (k * format.bytesPerPixel)).take format.bytesPerPixel)))
        else row[k]? := by
  induction row generalizing source k with
  | nil => exact absurd hk (Nat.not_lt_zero k)
  | cons old rest ih =>
      by_cases hfirst : format.bytesPerPixel ≤ source.length
      · rw [convertRow_cons hfirst]
        cases k with
        | zero =>
            rw [Nat.zero_add, Nat.one_mul, if_pos hfirst, Nat.zero_mul, List.drop_zero]
            rfl
        | succ k =>
            -- the rest of the row is converted from the bytes behind the first pixel
            have hrest : (k + 1) * format.bytesPerPixel
                ≤ (source.drop format.bytesPerPixel).length
                ↔ (k + 1 + 1) * format.bytesPerPixel ≤ source.length := by
              rw [List.length_drop, Nat.succ_mul (k + 1)]
              omega
            have hplace : format.bytesPerPixel + k * format.bytesPerPixel
                = (k + 1) * format.bytesPerPixel := by
              rw [Nat.succ_mul, Nat.add_comm]
            rw [List.getElem?_cons_succ, ih (Nat.lt_of_succ_lt_succ hk), List.drop_drop, hplace,
              List.getElem?_cons_succ]
            simp only [hrest]
      · have hnone : ¬ (k + 1) * format.bytesPerPixel ≤ source.length := by
          rw [Nat.succ_mul]
          omega
        rw [convertRow_of_short (Nat.lt_of_not_le hfirst), if_neg hnone]

end PixelFormat

end Golden
