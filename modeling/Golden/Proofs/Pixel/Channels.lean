import Golden.Pixel.Format
import Mathlib.Tactic.IntervalCases

/-!
# Golden.Proofs.Pixel.Channels — what becomes of the channels of a pixel

Each encoding keeps its channels in bits of their own (`PixelFormat.bits`), and between them they
take up the whole source word.  The canonical word is the encoding with eight bits for each channel
and blue lowest.  **Expanding a word widens each of its channels by itself**
(`PixelFormat.channel_expand`), and widening never takes two values together
(`eq_of_widened_eq`).  So nothing is lost: two source words expand to the same word only if they are
the same (`PixelFormat.expand_eq_iff`), and to the same colour only if they agree in red, green and
blue (`PixelFormat.colour_expand_eq_iff`).

Words are looked at as numbers throughout: cutting bits out is a quotient and a remainder, and
joining bits that do not overlap is a sum.
-/

namespace Golden

/-! ## Bits of a word -/

/-- So many bits of a word, from a lowest one on. -/
structure BitRange where
  low : Nat
  width : Nat
  deriving DecidableEq, Repr

/-- The number that stands in some bits of a word. -/
def BitRange.read (r : BitRange) (word : UInt32) : Nat := word.toNat / 2 ^ r.low % 2 ^ r.width

theorem BitRange.read_lt (r : BitRange) (word : UInt32) : r.read word < 2 ^ r.width :=
  Nat.mod_lt _ (Nat.two_pow_pos r.width)

theorem toNat_and_mask {mask : UInt32} {width : Nat} (hmask : mask.toNat = 2 ^ width - 1)
    (word : UInt32) : (word &&& mask).toNat = word.toNat % 2 ^ width := by
  rw [UInt32.toNat_and, hmask, Nat.and_two_pow_sub_one_eq_mod]

theorem toNat_shiftRight_and_mask {mask low : UInt32} {width : Nat} (hlow : low.toNat < 32)
    (hmask : mask.toNat = 2 ^ width - 1) (word : UInt32) :
    (word >>> low &&& mask).toNat = word.toNat / 2 ^ low.toNat % 2 ^ width := by
  rw [toNat_and_mask hmask, UInt32.toNat_shiftRight, Nat.mod_eq_of_lt hlow,
    Nat.shiftRight_eq_div_pow]

/-! ## Channels -/

inductive Pixel.Channel
  | red
  | green
  | blue
  | alpha
  deriving DecidableEq, Repr

namespace PixelFormat

/-- Where an encoding keeps a channel. -/
def bits : PixelFormat → Pixel.Channel → BitRange
  | .rgb565, .red => ⟨0, 5⟩
  | .rgb565, .green => ⟨5, 6⟩
  | .rgb565, .blue => ⟨11, 5⟩
  | .rgb565, .alpha => ⟨16, 0⟩
  | .rgba5551, .red => ⟨0, 5⟩
  | .rgba5551, .green => ⟨5, 5⟩
  | .rgba5551, .blue => ⟨10, 5⟩
  | .rgba5551, .alpha => ⟨15, 1⟩
  | .rgba4444, .red => ⟨0, 4⟩
  | .rgba4444, .green => ⟨4, 4⟩
  | .rgba4444, .blue => ⟨8, 4⟩
  | .rgba4444, .alpha => ⟨12, 4⟩
  | .rgba8888, .red => ⟨0, 8⟩
  | .rgba8888, .green => ⟨8, 8⟩
  | .rgba8888, .blue => ⟨16, 8⟩
  | .rgba8888, .alpha => ⟨24, 8⟩
  | .bgra8888, .red => ⟨16, 8⟩
  | .bgra8888, .green => ⟨8, 8⟩
  | .bgra8888, .blue => ⟨0, 8⟩
  | .bgra8888, .alpha => ⟨24, 8⟩

/-- The value of a channel in a word of an encoding. -/
def channel (format : PixelFormat) (ch : Pixel.Channel) (word : UInt32) : Nat :=
  (format.bits ch).read word

/-- **The channels take up the whole word**: words that agree in all of them are the same. -/
theorem eq_of_channel_eq {format : PixelFormat} {c d : UInt32}
    (hc : c.toNat < 256 ^ format.bytesPerPixel) (hd : d.toNat < 256 ^ format.bytesPerPixel)
    (h : ∀ ch, format.channel ch c = format.channel ch d) : c = d := by
  have hred := h .red
  have hgreen := h .green
  have hblue := h .blue
  have halpha := h .alpha
  apply UInt32.toNat_inj.mp
  cases format <;>
    simp only [channel, bits, BitRange.read, bytesPerPixel, Nat.reducePow]
      at hc hd hred hgreen hblue halpha <;>
    omega

end PixelFormat

/-- A channel of so many bits in eight bits: its leading bits are repeated below it.  A single bit
fills all eight, and where there is none the channel is full. -/
def widened (width v : Nat) : Nat :=
  match width with
  | 0 => 255
  | 1 => 255 * v
  | width => v * 2 ^ (8 - width) + v / 2 ^ (2 * width - 8)

theorem widened_eight {v : Nat} (h : v < 2 ^ 8) : widened 8 v = v := by
  show v * 2 ^ 0 + v / 2 ^ 8 = v
  omega

theorem widened_lt_widened {width v v' : Nat} (hwidth : width ≠ 0) (h : v < v') :
    widened width v < widened width v' := by
  unfold widened
  split
  · exact absurd rfl hwidth
  · omega
  · apply Nat.add_lt_add_of_lt_of_le
    · exact Nat.mul_lt_mul_of_pos_right h (Nat.two_pow_pos _)
    · exact Nat.div_le_div_right (Nat.le_of_lt h)

/-- **Widening keeps values apart.** -/
theorem eq_of_widened_eq {width v v' : Nat} (hv : v < 2 ^ width) (hv' : v' < 2 ^ width)
    (h : widened width v = widened width v') : v = v' := by
  by_cases hwidth : width = 0
  · subst hwidth
    omega
  · rcases Nat.lt_trichotomy v v' with hlt | heq | hgt
    · exact absurd h (Nat.ne_of_lt (widened_lt_widened hwidth hlt))
    · exact heq
    · exact absurd h (Nat.ne_of_gt (widened_lt_widened hwidth hgt))

/-- A widened value fills at most eight bits. -/
theorem widened_lt {width v : Nat} (hwidth : width ≤ 1 ∨ 4 ≤ width ∧ width ≤ 8)
    (hv : v < 2 ^ width) : widened width v < 256 := by
  rcases hwidth with hnarrow | ⟨hleast, hmost⟩
  · interval_cases width <;> simp only [widened] <;> omega
  · interval_cases width <;> simp only [widened] <;> omega

namespace Pixel

/-! ## Canonical words -/

/-- Bits joined to those of a shifted word, where that leaves room for them. -/
theorem toNat_shiftLeft_or {high low k : UInt32} (hk : k.toNat < 32)
    (hlow : low.toNat < 2 ^ k.toNat) (hhigh : high.toNat * 2 ^ k.toNat < 2 ^ 32) :
    (high <<< k ||| low).toNat = high.toNat * 2 ^ k.toNat + low.toNat := by
  have hshift : (high <<< k).toNat = high.toNat <<< k.toNat := by
    rw [UInt32.toNat_shiftLeft, Nat.mod_eq_of_lt hk, Nat.shiftLeft_eq, Nat.mod_eq_of_lt hhigh]
  rw [UInt32.toNat_or, hshift, ← Nat.shiftLeft_add_eq_or_of_lt hlow, Nat.shiftLeft_eq]

theorem toNat_pack {red green blue alpha : UInt32} (hred : red.toNat < 256)
    (hgreen : green.toNat < 256) (hblue : blue.toNat < 256) (halpha : alpha.toNat < 256) :
    (pack red green blue alpha).toNat
      = alpha.toNat * 2 ^ 24 + (red.toNat * 2 ^ 16 + (green.toNat * 2 ^ 8 + blue.toNat)) := by
  have hlow : (green <<< 8 ||| blue).toNat = green.toNat * 2 ^ 8 + blue.toNat :=
    toNat_shiftLeft_or (by decide) hblue (by show green.toNat * 2 ^ 8 < 2 ^ 32; omega)
  have hmiddle : (red <<< 16 ||| (green <<< 8 ||| blue)).toNat
      = red.toNat * 2 ^ 16 + (green.toNat * 2 ^ 8 + blue.toNat) := by
    rw [← hlow]
    apply toNat_shiftLeft_or (by decide)
    · show (green <<< 8 ||| blue).toNat < 2 ^ 16
      omega
    · show red.toNat * 2 ^ 16 < 2 ^ 32
      omega
  rw [pack, UInt32.or_assoc, UInt32.or_assoc, ← hmiddle]
  apply toNat_shiftLeft_or (by decide)
  · show (red <<< 16 ||| (green <<< 8 ||| blue)).toNat < 2 ^ 24
    omega
  · show alpha.toNat * 2 ^ 24 < 2 ^ 32
    omega

/-- The channels of a canonical word are those it was put together from. -/
theorem channel_pack {red green blue alpha : UInt32} (hred : red.toNat < 256)
    (hgreen : green.toNat < 256) (hblue : blue.toNat < 256) (halpha : alpha.toNat < 256)
    (ch : Pixel.Channel) :
    PixelFormat.bgra8888.channel ch (pack red green blue alpha)
      = match ch with
        | .red => red.toNat
        | .green => green.toNat
        | .blue => blue.toNat
        | .alpha => alpha.toNat := by
  cases ch <;>
    simp only [PixelFormat.channel, PixelFormat.bits, BitRange.read,
      toNat_pack hred hgreen hblue halpha] <;>
    omega

theorem toNat_widen4 {v : UInt32} (h : v.toNat < 2 ^ 4) :
    (widen4 v).toNat = widened 4 v.toNat := by
  show v.toNat * 17 % 2 ^ 32 = v.toNat * 2 ^ 4 + v.toNat / 2 ^ 0
  omega

/-- The leading bits of a value, repeated behind it. -/
theorem toNat_repeated {v up down : UInt32} (hup : up.toNat < 32) (hdown : down.toNat < 32)
    (hv : v.toNat < 2 ^ (down.toNat + up.toNat)) (hfits : v.toNat * 2 ^ up.toNat < 2 ^ 32) :
    (v <<< up ||| v >>> down).toNat = v.toNat * 2 ^ up.toNat + v.toNat / 2 ^ down.toNat := by
  have hlow : (v >>> down).toNat = v.toNat / 2 ^ down.toNat := by
    rw [UInt32.toNat_shiftRight, Nat.mod_eq_of_lt hdown, Nat.shiftRight_eq_div_pow]
  rw [toNat_shiftLeft_or hup _ hfits, hlow]
  rw [hlow]
  apply Nat.div_lt_of_lt_mul
  rw [← Nat.pow_add]
  exact hv

theorem toNat_widen5 {v : UInt32} (h : v.toNat < 2 ^ 5) : (widen5 v).toNat = widened 5 v.toNat := by
  apply toNat_repeated (by decide) (by decide) h
  show v.toNat * 2 ^ 3 < 2 ^ 32
  omega

theorem toNat_widen6 {v : UInt32} (h : v.toNat < 2 ^ 6) : (widen6 v).toNat = widened 6 v.toNat := by
  apply toNat_repeated (by decide) (by decide) h
  show v.toNat * 2 ^ 2 < 2 ^ 32
  omega

end Pixel

/-! ## Expanding -/

namespace PixelFormat

theorem width_bits (format : PixelFormat) (ch : Pixel.Channel) :
    (format.bits ch).width ≤ 1 ∨ 4 ≤ (format.bits ch).width ∧ (format.bits ch).width ≤ 8 := by
  cases format <;> cases ch <;> decide

/-- A canonical word whose channels are widened ones. -/
theorem channel_pack_widened {format : PixelFormat} {word red green blue alpha : UInt32}
    (hred : red.toNat = widened (format.bits .red).width (format.channel .red word))
    (hgreen : green.toNat = widened (format.bits .green).width (format.channel .green word))
    (hblue : blue.toNat = widened (format.bits .blue).width (format.channel .blue word))
    (halpha : alpha.toNat = widened (format.bits .alpha).width (format.channel .alpha word))
    (ch : Pixel.Channel) :
    bgra8888.channel ch (Pixel.pack red green blue alpha)
      = widened (format.bits ch).width (format.channel ch word) := by
  have hlt (ch : Pixel.Channel) : widened (format.bits ch).width (format.channel ch word) < 256 :=
    widened_lt (format.width_bits ch) (BitRange.read_lt _ word)
  rw [Pixel.channel_pack (hred ▸ hlt .red) (hgreen ▸ hlt .green) (hblue ▸ hlt .blue)
    (halpha ▸ hlt .alpha)]
  cases ch with
  | red => exact hred
  | green => exact hgreen
  | blue => exact hblue
  | alpha => exact halpha

section Widened

variable {widen : UInt32 → UInt32} {width : Nat}
  (hwiden : ∀ {v : UInt32}, v.toNat < 2 ^ width → (widen v).toNat = widened width v.toNat)
include hwiden

theorem toNat_widen_read {low mask : UInt32} (hlow : low.toNat < 32)
    (hmask : mask.toNat = 2 ^ width - 1) (word : UInt32) :
    (widen (word >>> low &&& mask)).toNat
      = widened width (BitRange.read ⟨low.toNat, width⟩ word) := by
  have hread := toNat_shiftRight_and_mask hlow hmask word
  rw [hwiden, hread, BitRange.read]
  rw [hread]
  exact Nat.mod_lt _ (Nat.two_pow_pos width)

theorem toNat_widen_read_zero {mask : UInt32} (hmask : mask.toNat = 2 ^ width - 1)
    (word : UInt32) :
    (widen (word &&& mask)).toNat = widened width (BitRange.read ⟨0, width⟩ word) := by
  have hzero : (0 : UInt32).toNat < 32 := by decide
  have hread := toNat_widen_read hwiden hzero hmask word
  rwa [UInt32.shiftRight_zero] at hread

end Widened

/-- **Expanding a word widens each of its channels by itself.** -/
theorem channel_expand (format : PixelFormat) (ch : Pixel.Channel) {word : UInt32}
    (hword : word.toNat < 256 ^ format.bytesPerPixel) :
    bgra8888.channel ch (format.expand word)
      = widened (format.bits ch).width (format.channel ch word) := by
  have hwide {v : UInt32} (h : v.toNat < 2 ^ 8) : (id v).toNat = widened 8 v.toNat :=
    (widened_eight h).symm
  have htop (low : UInt32) (hlow : low.toNat < 32) :
      (word >>> low).toNat = word.toNat / 2 ^ low.toNat := by
    rw [UInt32.toNat_shiftRight, Nat.mod_eq_of_lt hlow, Nat.shiftRight_eq_div_pow]
  cases format with
  | rgb565 =>
      apply channel_pack_widened
      · exact toNat_widen_read_zero Pixel.toNat_widen5 rfl word
      · exact toNat_widen_read Pixel.toNat_widen6 (by decide) rfl word
      · exact toNat_widen_read Pixel.toNat_widen5 (by decide) rfl word
      · rfl
  | rgba5551 =>
      apply channel_pack_widened
      · exact toNat_widen_read_zero Pixel.toNat_widen5 rfl word
      · exact toNat_widen_read Pixel.toNat_widen5 (by decide) rfl word
      · exact toNat_widen_read Pixel.toNat_widen5 (by decide) rfl word
      · -- the one bit of alpha is the last of the word, and is asked for rather than widened
        have hbit : (word >>> 15).toNat = word.toNat / 2 ^ 15 := htop 15 (by decide)
        have hlimit : word.toNat < 2 ^ 16 := hword
        show (if word >>> 15 = 0 then (0 : UInt32) else 0xFF).toNat
          = 255 * (word.toNat / 2 ^ 15 % 2 ^ 1)
        split
        · rename_i hzero
          rw [hzero] at hbit
          show 0 = _
          have hnone : word.toNat / 2 ^ 15 = 0 := hbit.symm
          omega
        · rename_i hne
          have hone : word.toNat / 2 ^ 15 ≠ 0 := by
            rw [← hbit]
            exact fun hzero => hne (UInt32.toNat_inj.mp hzero)
          show 255 = _
          omega
  | rgba4444 =>
      apply channel_pack_widened
      · exact toNat_widen_read_zero Pixel.toNat_widen4 rfl word
      · exact toNat_widen_read Pixel.toNat_widen4 (by decide) rfl word
      · exact toNat_widen_read Pixel.toNat_widen4 (by decide) rfl word
      · exact toNat_widen_read Pixel.toNat_widen4 (by decide) rfl word
  | rgba8888 =>
      apply channel_pack_widened
      · exact toNat_widen_read_zero hwide rfl word
      · exact toNat_widen_read hwide (by decide) rfl word
      · exact toNat_widen_read hwide (by decide) rfl word
      · have hlimit := word.toNat_lt
        rw [htop 24 (by decide)]
        show word.toNat / 2 ^ 24 = widened 8 (word.toNat / 2 ^ 24 % 2 ^ 8)
        rw [widened_eight (Nat.mod_lt _ (by decide))]
        omega
  | bgra8888 =>
      have hwidth : (bgra8888.bits ch).width = 8 := by cases ch <;> rfl
      have hlt : bgra8888.channel ch word < 2 ^ 8 := hwidth ▸ BitRange.read_lt _ word
      rw [hwidth, widened_eight hlt]
      rfl

/-! ## Nothing is lost -/

variable {format : PixelFormat} {c d : UInt32}

theorem channel_expand_eq_iff (hc : c.toNat < 256 ^ format.bytesPerPixel)
    (hd : d.toNat < 256 ^ format.bytesPerPixel) (ch : Pixel.Channel) :
    bgra8888.channel ch (format.expand c) = bgra8888.channel ch (format.expand d)
      ↔ format.channel ch c = format.channel ch d := by
  rw [channel_expand format ch hc, channel_expand format ch hd]
  constructor
  · exact eq_of_widened_eq (BitRange.read_lt _ c) (BitRange.read_lt _ d)
  · intro h
    rw [h]

/-- **Different source words expand to different canonical words.** -/
theorem expand_eq_iff (hc : c.toNat < 256 ^ format.bytesPerPixel)
    (hd : d.toNat < 256 ^ format.bytesPerPixel) : format.expand c = format.expand d ↔ c = d := by
  constructor
  · intro h
    apply eq_of_channel_eq hc hd
    intro ch
    rw [← channel_expand_eq_iff hc hd, h]
  · intro h
    rw [h]

theorem colour_eq_iff {c d : UInt32} :
    Pixel.colour c = Pixel.colour d
      ↔ ∀ ch ≠ Pixel.Channel.alpha, bgra8888.channel ch c = bgra8888.channel ch d := by
  have hcolour (word : UInt32) : (Pixel.colour word).toNat = word.toNat % 2 ^ 24 :=
    toNat_and_mask rfl word
  rw [← UInt32.toNat_inj, hcolour, hcolour]
  constructor
  · intro h ch hch
    cases ch with
    | alpha => exact absurd rfl hch
    | red | green | blue =>
        simp only [channel, bits, BitRange.read]
        omega
  · intro h
    have hred := h .red (by decide)
    have hgreen := h .green (by decide)
    have hblue := h .blue (by decide)
    simp only [channel, bits, BitRange.read] at hred hgreen hblue
    omega

/-- **Canonical words have the same colour exactly if the source words agree in red, green and
blue.** -/
theorem colour_expand_eq_iff (hc : c.toNat < 256 ^ format.bytesPerPixel)
    (hd : d.toNat < 256 ^ format.bytesPerPixel) :
    Pixel.colour (format.expand c) = Pixel.colour (format.expand d)
      ↔ ∀ ch ≠ Pixel.Channel.alpha, format.channel ch c = format.channel ch d := by
  rw [colour_eq_iff]
  exact forall₂_congr fun ch _ => channel_expand_eq_iff hc hd ch

end PixelFormat

end Golden
