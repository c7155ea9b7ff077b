import Golden.Text.Utf8

/-!
# Golden.Proofs.Text.Encoded — encoded text decodes to itself

A character is encoded in one to four bytes, and which of the four it is can be told by the first of
them.  The machine that decodes expects from there on exactly the bytes that follow: each of them
carries six bits of the character's number (`Pending.next_continuation`), and the bounds it puts on
the second byte keep out only what no character is encoded as (`scan_utf8EncodeChar`).

So encoded text is well-formed, and decoding it in either way gives it back
(`textOfBytes?_bytesOfText`, `textOfBytes_bytesOfText`).
-/

namespace Golden.Text.Utf8

/-! ## First bytes -/

theorem first_one : ∀ n : Fin 128, first (UInt8.ofNat n) = .char (Char.ofNat n) := by decide

theorem first_two : ∀ n : Fin 30,
    first (UInt8.ofNat (n + 2 + 192)) = .inside ⟨0, 0x80, 0xBF, n + 2⟩ := by
  decide

/-- The least numbers that need three bytes have no shorter form, and surrogates are left out. -/
theorem first_three : ∀ n : Fin 16, ∃ low high,
    first (UInt8.ofNat (n + 224)) = .inside ⟨1, low, high, n⟩
      ∧ low.toNat = (if n.val = 0 then 160 else 128)
      ∧ high.toNat = (if n.val = 13 then 159 else 191) := by
  intro n
  refine ⟨if n = 0 then 0xA0 else 0x80, if n = 13 then 0x9F else 0xBF, ?_⟩
  revert n
  decide

/-- The least numbers that need four bytes have no shorter form, and the greatest is `0x10FFFF`. -/
theorem first_four : ∀ n : Fin 5, ∃ low high,
    first (UInt8.ofNat (n + 240)) = .inside ⟨2, low, high, n⟩
      ∧ low.toNat = (if n.val = 0 then 144 else 128)
      ∧ high.toNat = (if n.val = 4 then 143 else 191) := by
  intro n
  refine ⟨if n = 0 then 0x90 else 0x80, if n = 4 then 0x8F else 0xBF, ?_⟩
  revert n
  decide

/-! ## The bytes behind them -/

/-- Six bits fit into a byte inside a character. -/
theorem continuation_le {n : Nat} (hn : n < 64) : n + 128 ≤ (0xBF : UInt8).toNat := by
  show n + 128 ≤ 191
  omega

/-- A byte inside a character adds six bits to its number. -/
theorem Pending.next_continuation {p : Pending} {n : Nat} (hn : n < 64)
    (hlow : p.low.toNat ≤ n + 128) (hhigh : n + 128 ≤ p.high.toNat) :
    p.next (UInt8.ofNat (n + 128))
      = match p.owed with
        | 0 => .char (Char.ofNat (p.bits * 64 + n))
        | owed + 1 => .inside ⟨owed, 0x80, 0xBF, p.bits * 64 + n⟩ := by
  have hbyte : (UInt8.ofNat (n + 128)).toNat = n + 128 := by
    rw [UInt8.toNat_ofNat']
    omega
  have hbetween : p.low ≤ UInt8.ofNat (n + 128) ∧ UInt8.ofNat (n + 128) ≤ p.high := by
    rw [UInt8.le_iff_toNat_le, UInt8.le_iff_toNat_le, hbyte]
    exact ⟨hlow, hhigh⟩
  cases howed : p.owed with
  | zero => simp only [Pending.next, if_pos hbetween, hbyte, Nat.add_sub_cancel, howed]
  | succ owed => simp only [Pending.next, if_pos hbetween, hbyte, Nat.add_sub_cancel, howed]

section

variable {low high : UInt8} {n : Nat} (hn : n < 64) (hlow : low.toNat ≤ n + 128)
  (hhigh : n + 128 ≤ high.toNat) (bits : Nat) (rest : List UInt8)

include hn hlow hhigh

theorem scan_last : scan (some ⟨0, low, high, bits⟩) (UInt8.ofNat (n + 128) :: rest)
    = some (Char.ofNat (bits * 64 + n)) :: scan none rest := by
  rw [scan, Pending.next_continuation hn hlow hhigh]

theorem scan_further (owed : Nat) :
    scan (some ⟨owed + 1, low, high, bits⟩) (UInt8.ofNat (n + 128) :: rest)
      = scan (some ⟨owed, 0x80, 0xBF, bits * 64 + n⟩) rest := by
  rw [scan, Pending.next_continuation hn hlow hhigh]

end

/-! ## Characters and texts -/

section

variable {v : Nat} (rest : List UInt8)

theorem scan_one (h : v ≤ 0x7F) :
    scan none (UInt8.ofNat v :: rest) = some (Char.ofNat v) :: scan none rest := by
  rw [scan, first_one ⟨v, by omega⟩]

theorem scan_two (hlong : 0x7F < v) (h : v ≤ 0x7FF) :
    scan none (UInt8.ofNat (v / 64 % 32 + 192) :: UInt8.ofNat (v % 64 + 128) :: rest)
      = some (Char.ofNat v) :: scan none rest := by
  have hlead : v / 64 % 32 = v / 64 - 2 + 2 := by omega
  have hsum : (v / 64 - 2 + 2) * 64 + v % 64 = v := by omega
  have hlast : v % 64 < 64 := Nat.mod_lt v (by decide)
  rw [hlead, scan, first_two ⟨v / 64 - 2, by omega⟩]
  dsimp only
  rw [scan_last hlast (Nat.le_add_left _ _) (continuation_le hlast), hsum]

theorem scan_three (hlong : 0x7FF < v) (h : v ≤ 0xFFFF) (hvalid : v < 0xD800 ∨ 0xDFFF < v) :
    scan none (UInt8.ofNat (v / 4096 % 16 + 224) :: UInt8.ofNat (v / 64 % 64 + 128)
        :: UInt8.ofNat (v % 64 + 128) :: rest)
      = some (Char.ofNat v) :: scan none rest := by
  have hlead : v / 4096 % 16 = v / 4096 := by omega
  have hsum : (v / 4096 * 64 + v / 64 % 64) * 64 + v % 64 = v := by omega
  have hmiddle : v / 64 % 64 < 64 := Nat.mod_lt _ (by decide)
  have hlast : v % 64 < 64 := Nat.mod_lt v (by decide)
  obtain ⟨low, high, hfirst, hlow, hhigh⟩ := first_three ⟨v / 4096, by omega⟩
  dsimp only at hlow hhigh
  have hbelow : low.toNat ≤ v / 64 % 64 + 128 := by split at hlow <;> omega
  have habove : v / 64 % 64 + 128 ≤ high.toNat := by split at hhigh <;> omega
  rw [hlead, scan, hfirst]
  dsimp only
  rw [scan_further hmiddle hbelow habove,
    scan_last hlast (Nat.le_add_left _ _) (continuation_le hlast), hsum]

theorem scan_four (hlong : 0xFFFF < v) (h : v < 0x110000) :
    scan none (UInt8.ofNat (v / 262144 % 8 + 240) :: UInt8.ofNat (v / 4096 % 64 + 128)
        :: UInt8.ofNat (v / 64 % 64 + 128) :: UInt8.ofNat (v % 64 + 128) :: rest)
      = some (Char.ofNat v) :: scan none rest := by
  have hlead : v / 262144 % 8 = v / 262144 := by omega
  have hsum : ((v / 262144 * 64 + v / 4096 % 64) * 64 + v / 64 % 64) * 64 + v % 64 = v := by omega
  have hfar : v / 4096 % 64 < 64 := Nat.mod_lt _ (by decide)
  have hmiddle : v / 64 % 64 < 64 := Nat.mod_lt _ (by decide)
  have hlast : v % 64 < 64 := Nat.mod_lt v (by decide)
  obtain ⟨low, high, hfirst, hlow, hhigh⟩ := first_four ⟨v / 262144, by omega⟩
  dsimp only at hlow hhigh
  have hbelow : low.toNat ≤ v / 4096 % 64 + 128 := by split at hlow <;> omega
  have habove : v / 4096 % 64 + 128 ≤ high.toNat := by split at hhigh <;> omega
  rw [hlead, scan, hfirst]
  dsimp only
  rw [scan_further hfar hbelow habove,
    scan_further hmiddle (Nat.le_add_left _ _) (continuation_le hmiddle),
    scan_last hlast (Nat.le_add_left _ _) (continuation_le hlast), hsum]

end

/-- **One character** is decoded from the bytes it is encoded in, whatever follows. -/
theorem scan_utf8EncodeChar (c : Char) (rest : List UInt8) :
    scan none (String.utf8EncodeChar c ++ rest) = some c :: scan none rest := by
  have hvalid : c.val.toNat < 0xD800 ∨ 0xDFFF < c.val.toNat ∧ c.val.toNat < 0x110000 := c.valid
  have hchar : Char.ofNat c.val.toNat = c := Char.ofNat_toNat c
  rw [String.utf8EncodeChar]
  generalize c.val.toNat = v at hvalid hchar
  rw [← hchar]
  split
  · rename_i hone
    exact scan_one rest hone
  · split
    · exact scan_two rest (by omega) (by omega)
    · split
      · exact scan_three rest (by omega) (by omega) (by omega)
      · exact scan_four rest (by omega) (by omega)

theorem scan_encode (text : List Char) : scan none (encode text) = text.map some := by
  induction text with
  | nil => rfl
  | cons c text ih =>
      show scan none (String.utf8EncodeChar c ++ encode text) = _
      rw [scan_utf8EncodeChar, ih]
      rfl

theorem decode?_encode (text : List Char) : decode? (encode text) = some text := by
  rw [decode?, scan_encode]
  induction text with
  | nil => rfl
  | cons c text ih => rw [List.map_cons, List.mapM_cons, ih]; rfl

theorem decodeLossy_encode (text : List Char) : decodeLossy (encode text) = text := by
  rw [decodeLossy, scan_encode, List.map_map]
  exact List.map_id text

end Golden.Text.Utf8

namespace Golden

/-- **Text is well-formed once it is encoded**, and decodes to itself. -/
theorem textOfBytes?_bytesOfText (text : String) : textOfBytes? (bytesOfText text) = some text := by
  rw [textOfBytes?, bytesOfText, Text.Utf8.decode?_encode, Option.map_some, String.ofList_toList]

theorem textOfBytes_bytesOfText (text : String) : textOfBytes (bytesOfText text) = text := by
  rw [textOfBytes, bytesOfText, Text.Utf8.decodeLossy_encode, String.ofList_toList]

end Golden
