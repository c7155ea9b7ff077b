import Golden.Pixel.Buffer

/-!
# Golden.Proofs.Pixel.Canonical — when a capture has a canonical form

The judgement on a capture does not depend on the size that is asked for: a capture that is
`Complete` has a canonical form at every size that a vector can hold
(`Capture.normalize_of_complete`), and asking for any other one is an overrun
(`Capture.normalize_of_overlong`).  That form is `Sized`: it has exactly the words its stride and
height promise, because rows are written over words that are there already and never behind the last
of them (`size_overwrite`).

A capture that is not complete is refused before anything is made
(`Capture.normalize_of_not_complete`).
-/

namespace Golden

/-- Putting words over others neither adds nor removes any. -/
@[simp] theorem size_overwrite (words : Array UInt32) (start : Nat) (row : List UInt32) :
    (overwrite words start row).size = words.size := by
  induction row generalizing words start with
  | nil => rfl
  | cons word rest ih => rw [overwrite, ih, Array.size_setIfInBounds]

/-- A buffer with as many words as its size promises. -/
def PixelBuffer.Sized (b : PixelBuffer) : Prop :=
  b.pixels.size = b.stride.toNat * b.height.toNat

namespace PixelBuffer

theorem sized_blank (stride height : UInt32) : (blank stride height).Sized := Array.size_replicate

theorem zeroed_of_le {stride height : UInt32}
    (h : 4 * (stride.toNat * height.toNat) ≤ vectorLimit) :
    zeroed stride height = .ok (blank stride height) :=
  if_neg (Nat.not_lt_of_le h)

theorem zeroed_of_lt {stride height : UInt32}
    (h : vectorLimit < 4 * (stride.toNat * height.toNat)) :
    zeroed stride height = .error .overrun :=
  if_pos h

end PixelBuffer

namespace Capture

/-- A capture in a known format with all the bytes its geometry takes, which can be addressed. -/
structure Complete (c : Capture) (format : PixelFormat) : Prop where
  known : c.format? = some format
  addressable : c.bytesNeeded format < addressLimit
  covered : c.bytesNeeded format ≤ c.data.size

instance (c : Capture) (format : PixelFormat) : Decidable (c.Complete format) :=
  decidable_of_iff
    (c.format? = some format ∧ c.bytesNeeded format < addressLimit
      ∧ c.bytesNeeded format ≤ c.data.size)
    ⟨fun ⟨known, addressable, covered⟩ => ⟨known, addressable, covered⟩,
      fun ⟨known, addressable, covered⟩ => ⟨known, addressable, covered⟩⟩

/-- The checks of a capture accept the complete ones and no others. -/
theorem checkedFormat_eq_ok_iff {c : Capture} {format : PixelFormat} :
    c.checkedFormat = .ok format ↔ c.Complete format := by
  constructor
  · intro h
    unfold checkedFormat at h
    split at h
    · cases h
    · rename_i found hfound
      split at h
      · cases h
      · rename_i haddress
        split at h
        · cases h
        · rename_i hcovered
          cases h
          exact ⟨hfound, Nat.lt_of_not_le haddress, Nat.le_of_not_lt hcovered⟩
  · intro h
    have haddress : ¬ addressLimit ≤ c.bytesNeeded format := Nat.not_le_of_lt h.addressable
    have hcovered : ¬ c.data.size < c.bytesNeeded format := Nat.not_lt_of_le h.covered
    simp only [checkedFormat, h.known, if_neg haddress, if_neg hcovered]

@[simp] theorem size_copyRow (c : Capture) (format : PixelFormat) (stride columns : Nat)
    (words : Array UInt32) (y : Nat) :
    (c.copyRow format stride columns words y).size = words.size :=
  size_overwrite ..

theorem size_foldl_copyRow (c : Capture) (format : PixelFormat) (stride columns : Nat)
    (rows : List Nat) (words : Array UInt32) :
    (rows.foldl (c.copyRow format stride columns) words).size = words.size := by
  induction rows generalizing words with
  | nil => rfl
  | cons y rest ih => rw [List.foldl_cons, ih, size_copyRow]

/-- **A complete capture has a canonical form at every size that a vector can hold.** -/
theorem normalize_of_complete {c : Capture} {format : PixelFormat} (h : c.Complete format)
    {stride height : UInt32} (hroom : 4 * (stride.toNat * height.toNat) ≤ vectorLimit) :
    ∃ b, c.normalize stride height = .ok b ∧ b.stride = stride ∧ b.height = height ∧ b.Sized := by
  have hchecked := checkedFormat_eq_ok_iff.mpr h
  refine ⟨_, by rw [normalize, hchecked, PixelBuffer.zeroed_of_le hroom]; rfl, rfl, rfl, ?_⟩
  show (List.foldl _ (PixelBuffer.blank stride height).pixels _).size = _
  rw [size_foldl_copyRow, PixelBuffer.sized_blank]

/-- Any other size is an overrun. -/
theorem normalize_of_overlong {c : Capture} {format : PixelFormat} (h : c.Complete format)
    {stride height : UInt32} (hroom : vectorLimit < 4 * (stride.toNat * height.toNat)) :
    c.normalize stride height = .error .overrun := by
  rw [normalize, checkedFormat_eq_ok_iff.mpr h, PixelBuffer.zeroed_of_lt hroom]
  rfl

theorem normalize_eq_error {c : Capture} {failure : Failure}
    (h : c.checkedFormat = .error failure) (stride height : UInt32) :
    c.normalize stride height = .error (.failure failure) := by
  rw [normalize, h]
  rfl

/-- **A capture that is not complete is refused**, at every size. -/
theorem normalize_of_not_complete {c : Capture} (h : ∀ format, ¬ c.Complete format)
    (stride height : UInt32) :
    ∃ failure, c.checkedFormat = .error failure ∧
      c.normalize stride height = .error (.failure failure) := by
  cases hchecked : c.checkedFormat with
  | ok format => exact absurd (checkedFormat_eq_ok_iff.mp hchecked) (h format)
  | error failure => exact ⟨failure, rfl, normalize_eq_error hchecked stride height⟩

/-- A canonical form is one of a complete capture, at a size that a vector can hold. -/
theorem room_of_normalize {c : Capture} {stride height : UInt32} {b : PixelBuffer}
    (h : c.normalize stride height = .ok b) :
    4 * (stride.toNat * height.toNat) ≤ vectorLimit := by
  refine Nat.le_of_not_lt fun hroom => ?_
  rw [normalize, PixelBuffer.zeroed_of_lt hroom] at h
  cases hchecked : c.checkedFormat <;> rw [hchecked] at h <;> cases h

/-- **Bringing a capture into its canonical form overruns** when the capture is complete and no
vector could hold the form. -/
theorem normalize_eq_overrun_iff {c : Capture} {stride height : UInt32} :
    c.normalize stride height = .error .overrun ↔
      (∃ format, c.Complete format) ∧ vectorLimit < 4 * (stride.toNat * height.toNat) := by
  constructor
  · intro h
    by_cases hcomplete : ∃ format, c.Complete format
    · obtain ⟨format, hcomplete⟩ := hcomplete
      refine ⟨⟨format, hcomplete⟩, Nat.lt_of_not_le fun hroom => ?_⟩
      obtain ⟨b, hb, -⟩ := normalize_of_complete hcomplete hroom
      rw [h] at hb
      cases hb
    · obtain ⟨failure, -, hrefused⟩ :=
        normalize_of_not_complete (fun format hformat => hcomplete ⟨format, hformat⟩) stride height
      rw [h] at hrefused
      cases hrefused
  · rintro ⟨⟨format, hcomplete⟩, hlong⟩
    exact normalize_of_overlong hcomplete hlong

end Capture

end Golden
