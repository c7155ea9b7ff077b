import Golden.Text.Utf8

/-!
# Golden.Proofs.Text.Newlines — decoding keeps line breaks where they are

Only the newline byte decodes to a newline.  A longer spelling of one does not exist for the
decoder: a character of more than one byte is at least `U+0080`, which the machine guarantees by the
least payload a character in progress can still come to (`Pending.Wide`).  So a line cut out of the
bytes at a newline and the same line cut out of the decoded text are the same
(`decodeLossy_concat_newline`, `newline_notMem_decodeLossy`).
-/

namespace Golden.Text.Utf8

theorem eq_of_ofNat_eq_newline {n : Nat} (h : Char.ofNat n = '\n') : n = 10 := by
  by_cases hvalid : n.isValidChar
  · rw [Char.ofNat, dif_pos hvalid] at h
    exact congrArg Char.toNat h
  · rw [Char.ofNat, dif_neg hvalid] at h
    cases h

/-- The least payload that a welcome next byte makes is too large for a newline. -/
def Pending.Wide (p : Pending) : Prop :=
  0x80 ≤ p.low.toNat ∧ 16 ≤ p.bits * 64 + (p.low.toNat - 0x80)

theorem first_wide {b : UInt8} {p : Pending} (h : first b = .inside p) : p.Wide := by
  unfold first at h
  repeat' split at h
  all_goals cases h
  all_goals simp only [UInt8.le_iff_toNat_le, UInt8.lt_iff_toNat_lt, ← UInt8.toNat_inj,
    UInt8.reduceToNat, Pending.Wide] at *
  all_goals omega

theorem first_ne_newline {b : UInt8} {c : Char} (h : first b = .char c) (hb : b ≠ newline) :
    c ≠ '\n' := by
  rintro rfl
  unfold first at h
  split at h
  · rw [Step.char.injEq] at h
    exact hb (UInt8.toNat_inj.mp (eq_of_ofNat_eq_newline h))
  · repeat' split at h
    all_goals cases h

theorem Pending.Wide.next_wide {p q : Pending} {b : UInt8} (hp : p.Wide)
    (h : p.next b = .inside q) : q.Wide := by
  obtain ⟨hlow, hbits⟩ := hp
  unfold Pending.next at h
  split at h
  · rename_i hb
    have hle : p.low.toNat ≤ b.toNat := UInt8.le_iff_toNat_le.mp hb.1
    split at h
    · cases h
    · cases h
      simp only [Pending.Wide, UInt8.reduceToNat]
      omega
  · cases h

theorem Pending.Wide.next_ne_newline {p : Pending} {b : UInt8} {c : Char} (hp : p.Wide)
    (h : p.next b = .char c) : c ≠ '\n' := by
  obtain ⟨hlow, hbits⟩ := hp
  rintro rfl
  unfold Pending.next at h
  split at h
  · rename_i hb
    have hle : p.low.toNat ≤ b.toNat := UInt8.le_iff_toNat_le.mp hb.1
    split at h
    · have hten := eq_of_ofNat_eq_newline (Step.char.inj h)
      omega
    · cases h
  · cases h

/-- Bytes without a newline decode to no newline, whatever character was in progress. -/
theorem newline_notMem_scan :
    ∀ (bytes : List UInt8) (state : Option Pending), (∀ p ∈ state, p.Wide) → newline ∉ bytes →
      some '\n' ∉ scan state bytes
  | [], none, _, _ => by simp [scan]
  | [], some _, _, _ => by simp [scan]
  | b :: bytes, none, _, hnew => by
      rw [List.mem_cons, not_or] at hnew
      obtain ⟨hb, hbytes⟩ := hnew
      have ih := fun state hwide => newline_notMem_scan bytes state hwide hbytes
      unfold scan
      split
      · rename_i c hc
        have hne : c ≠ '\n' := first_ne_newline hc (Ne.symm hb)
        simpa [Ne.symm hne] using ih none (by simp)
      · rename_i p hp
        exact ih (some p) (by simpa using first_wide hp)
      · simpa using ih none (by simp)
  | b :: bytes, some p, hwide, hnew => by
      rw [List.mem_cons, not_or] at hnew
      obtain ⟨hb, hbytes⟩ := hnew
      have hp : p.Wide := hwide p rfl
      have ih := fun state hwide => newline_notMem_scan bytes state hwide hbytes
      unfold scan
      split
      · rename_i c hc
        have hne : c ≠ '\n' := hp.next_ne_newline hc
        simpa [Ne.symm hne] using ih none (by simp)
      · rename_i q hq
        exact ih (some q) (by simpa using hp.next_wide hq)
      · split
        · rename_i c hc
          have hne : c ≠ '\n' := first_ne_newline hc (Ne.symm hb)
          simpa [Ne.symm hne] using ih none (by simp)
        · rename_i q hq
          simpa using ih (some q) (by simpa using first_wide hq)
        · simpa using ih none (by simp)

/-- Text decoded from bytes without a newline has none. -/
theorem newline_notMem_decodeLossy {bytes : List UInt8} (h : newline ∉ bytes) :
    '\n' ∉ decodeLossy bytes := by
  intro hmem
  obtain ⟨item, hitem, hc⟩ := List.mem_map.mp hmem
  cases item with
  | none => exact absurd hc (by decide)
  | some c =>
      obtain rfl : c = '\n' := hc
      exact newline_notMem_scan bytes none (by simp) h hitem

/-- A newline byte cuts short a character in progress, as the end of the bytes does. -/
theorem scan_concat_newline :
    ∀ (bytes : List UInt8) (state : Option Pending), (∀ p ∈ state, p.Confined) →
      scan state (bytes ++ [newline]) = scan state bytes ++ [some '\n']
  | [], none, _ => by simp [scan, first_newline]
  | [], some p, h => by simp [scan, first_newline, Pending.next_newline (h p rfl)]
  | b :: bytes, none, _ => by
      have ih := scan_concat_newline bytes
      simp only [List.cons_append, scan]
      split
      · simp [ih none (by simp)]
      · rename_i p hp
        exact ih (some p) (by simpa using first_confined hp)
      · simp [ih none (by simp)]
  | b :: bytes, some p, _ => by
      have ih := scan_concat_newline bytes
      simp only [List.cons_append, scan]
      split
      · simp [ih none (by simp)]
      · rename_i q hq
        exact ih (some q) (by simpa using Pending.next_confined hq)
      · split
        · simp [ih none (by simp)]
        · rename_i q hq
          simp [ih (some q) (by simpa using first_confined hq)]
        · simp [ih none (by simp)]

theorem decodeLossy_concat_newline (bytes : List UInt8) :
    decodeLossy (bytes ++ [newline]) = decodeLossy bytes ++ ['\n'] := by
  simp [decodeLossy, scan_concat_newline bytes none (by simp)]

end Golden.Text.Utf8
