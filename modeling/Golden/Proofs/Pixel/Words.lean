import Golden.Pixel.Format
import Mathlib.Data.Nat.Digits.Defs

/-!
# Golden.Proofs.Pixel.Words — the word that a few bytes spell

A word has room for four bytes.  Of a longer sequence the bytes behind the fourth are shifted out
(`toNat_littleEndian_cons`), but up to four bytes are the digits of their word to the base 256
(`toNat_littleEndian`), least significant first.  So the word is as small as the number of its bytes
says (`toNat_littleEndian_lt`), and the bytes are determined by it (`littleEndian_inj`).  No pixel
takes more than that room (`PixelFormat.bytesPerPixel_le`).
-/

namespace Golden

/-- The first byte of a sequence is the low byte of its word. -/
theorem toNat_littleEndian_cons (b : UInt8) (rest : List UInt8) :
    (littleEndian (b :: rest)).toNat = b.toNat + 256 * ((littleEndian rest).toNat % 0x1000000) := by
  have hb : b.toNat < 2 ^ 8 := b.toNat_lt
  have hshift : ((littleEndian rest).toNat <<< 8) % 2 ^ 32
      = ((littleEndian rest).toNat % 0x1000000) <<< 8 := by
    simp only [Nat.shiftLeft_eq]
    omega
  rw [littleEndian, UInt32.toNat_or, UInt32.toNat_shiftLeft, UInt8.toNat_toUInt32, Nat.or_comm]
  -- the byte lies below the shifted word, so that joining the two is adding them
  rw [show (8 : UInt32).toNat % 32 = 8 from rfl, hshift, ← Nat.shiftLeft_add_eq_or_of_lt hb]
  rw [Nat.shiftLeft_eq]
  omega

theorem digit_lt (bytes : List UInt8) : ∀ digit ∈ bytes.map UInt8.toNat, digit < 256 := by
  intro digit hdigit
  obtain ⟨b, -, rfl⟩ := List.mem_map.mp hdigit
  exact b.toNat_lt

theorem ofDigits_bytes_lt (bytes : List UInt8) :
    Nat.ofDigits 256 (bytes.map UInt8.toNat) < 256 ^ bytes.length := by
  have hlt := Nat.ofDigits_lt_base_pow_length (by decide) (digit_lt bytes)
  rwa [List.length_map] at hlt

/-- **At most four bytes are the digits of their word.** -/
theorem toNat_littleEndian {bytes : List UInt8} (h : bytes.length ≤ 4) :
    (littleEndian bytes).toNat = Nat.ofDigits 256 (bytes.map UInt8.toNat) := by
  induction bytes with
  | nil => rfl
  | cons b rest ih =>
      rw [List.length_cons] at h
      have hrest := ih (by omega)
      -- three bytes behind the first one are not shifted out
      have hroom : (littleEndian rest).toNat < 0x1000000 := by
        calc (littleEndian rest).toNat < 256 ^ rest.length := hrest ▸ ofDigits_bytes_lt rest
          _ ≤ 256 ^ 3 := Nat.pow_le_pow_right (by decide) (by omega)
      rw [toNat_littleEndian_cons, Nat.mod_eq_of_lt hroom, hrest, List.map_cons, Nat.ofDigits_cons]

theorem toNat_littleEndian_lt {bytes : List UInt8} (h : bytes.length ≤ 4) :
    (littleEndian bytes).toNat < 256 ^ bytes.length := by
  rw [toNat_littleEndian h]
  exact ofDigits_bytes_lt bytes

/-- **At most four bytes are determined by their word.** -/
theorem littleEndian_inj {bytes others : List UInt8} (hlength : bytes.length = others.length)
    (hfour : bytes.length ≤ 4) (h : littleEndian bytes = littleEndian others) : bytes = others := by
  have hdigits := congrArg UInt32.toNat h
  rw [toNat_littleEndian hfour, toNat_littleEndian (hlength ▸ hfour)] at hdigits
  have hsame : (bytes.map UInt8.toNat).length = (others.map UInt8.toNat).length := by
    rw [List.length_map, List.length_map, hlength]
  apply (List.map_inj_right fun _ _ => UInt8.toNat_inj.mp).mp
  exact Nat.ofDigits_inj_of_len_eq (by decide) hsame (digit_lt bytes) (digit_lt others) hdigits

theorem PixelFormat.bytesPerPixel_le (format : PixelFormat) : format.bytesPerPixel ≤ 4 := by
  cases format <;> decide

end Golden
