import Golden.Proofs.Comparison.Report
import Golden.Proofs.Screenshot.Differences
import Golden.Proofs.Screenshot.Recorded

/-!
# Golden.Proofs.Screenshot.Reloaded — a recorded reference at any size

The reader of a reference is never told what size was written, and the header that says so is
skipped.  So one recorded buffer can be asked for at any stride and height.  What is loaded depends
on the number of words alone: the first ones that were recorded if there are enough, and otherwise
nothing (`Reference.load_of_recorded`).  Asked for at its own size, a buffer comes back as it was,
and compared with itself it differs nowhere.

**A size that can be counted may still be more than a vector can hold.**  Room is made for the words
before the first of them is looked for, so a recorded buffer asked for at such a size is not found
to be too short: the load overruns (`Reference.load_of_recorded_overrun`).

Nothing is assumed of the recording but that it succeeded.  What must have held for that is read off
the recording itself (`Reference.write_eq_ok`), in particular that the words take few enough bytes.
-/

namespace Golden

/-- A buffer that fits a view is scored against itself without a difference. -/
theorem View.Fits.score_self {v : View} {b : PixelBuffer} (h : v.Fits b)
    (hwidth : v.width ≤ v.stride) :
    Score.ofPixels b.pixels b.pixels v = .ok ⟨0, v.width.toNat * v.height.toNat⟩ := by
  rw [Score.ofPixels_of_covers (h.covers hwidth) (h.covers hwidth), Score.count_eq h h hwidth,
    View.differences_self, Finset.card_empty]

namespace Reference

variable {fs written : Files} {p : Path} {b : PixelBuffer}

/-- What a recording that succeeded has done. -/
theorem write_eq_ok (h : write fs p b = ⟨written, .ok ()⟩) :
    problem? b = none ∧ (fs.makeParent p).stopped = none ∧
      (fs.makeParent p).files.write p (.bitmap b) = .ok written := by
  unfold write at h
  cases hproblem : problem? b with
  | some problem => rw [hproblem] at h; cases h
  | none =>
      rw [hproblem] at h
      dsimp only at h
      cases hstopped : (fs.makeParent p).stopped with
      | some cause => rw [hstopped] at h; cases h
      | none =>
          rw [hstopped] at h
          dsimp only at h
          cases hwritten : (fs.makeParent p).files.write p (.bitmap b) with
          | error cause => rw [hwritten] at h; cases h
          | ok files =>
              rw [hwritten] at h
              cases h
              exact ⟨rfl, rfl, rfl⟩

/-- A bitmap holds less than can be addressed. -/
theorem imageLength_le (h : problem? b = none) : imageLength b ≤ unsignedLimit :=
  (problem?_eq_none_iff.mp h).2.2

/-- What recording a buffer has left at its path. -/
theorem resolve_of_recorded (h : write fs p b = ⟨written, .ok ()⟩) :
    ∃ place, written.resolve p = .ok (place, .file (.bitmap b)) := by
  obtain ⟨-, -, hwrite⟩ := write_eq_ok h
  exact Files.resolve_of_write hwrite

/-- What cannot even be counted is refused as too large. -/
theorem load_of_addressLimit_le {place : Place} {entry : Entry} {stride height : UInt32}
    (hplace : written.resolve p = .ok (place, entry))
    (hlimit : addressLimit ≤ 4 * (stride.toNat * height.toNat)) :
    load written p stride height = .error .viewTooLarge := by
  simp only [load, hplace, if_pos hlimit]

/-- **A recorded reference at any size.**  Once a buffer has been recorded, a load by any stride and
height whose bytes a vector can hold gives the first words of the buffer, as many as the two take;
if the buffer has fewer, the reference is truncated.  Up to that the size is what decides: bytes
that cannot be counted are refused, and bytes that can be counted but not held are an overrun.

So a buffer with all the words its own size promises is loaded as it was recorded, and compared with
its record at any width it differs in no pixel. -/
theorem load_of_recorded (h : write fs p b = ⟨written, .ok ()⟩) :
    (∀ stride height : UInt32,
      (loadTraced written p stride height).value
        = if 2 ^ 64 ≤ 4 * (stride.toNat * height.toNat) then
            .error (.failure (.buffer (.viewTooLarge stride height)))
          else if vectorLimit < 4 * (stride.toNat * height.toNat) then .error .overrun
          else if stride.toNat * height.toNat ≤ b.pixels.size then
            .ok (b.pixels.take (stride.toNat * height.toNat))
          else .error (.failure (.referenceTruncated p))) ∧
    (b.pixels.size = b.stride.toNat * b.height.toNat →
      (loadTraced written p b.stride b.height).value = .ok b.pixels ∧
      ∀ width ≤ b.stride,
        let v : View := ⟨b.stride, width, b.height⟩
        let score : Score := ⟨0, width.toNat * b.height.toNat⟩
        Score.ofPixels b.pixels b.pixels v = .ok score ∧
        compare written p b.pixels v = .ok score.ratio) := by
  obtain ⟨place, hplace⟩ := resolve_of_recorded h
  constructor
  · intro stride height
    rw [value_loadTraced]
    -- the two limits are tested in the order in which the load meets them
    split
    · rename_i hlimit
      rw [load_of_addressLimit_le hplace hlimit]
      rfl
    · rename_i hlimit
      split
      · rename_i hlong
        rw [load_eq_overrun_iff.mpr ⟨⟨_, hplace⟩, Nat.lt_of_not_le hlimit, hlong⟩]
        rfl
      · rename_i hlong
        rw [load_encode (Nat.le_of_not_lt hlong) hplace]
        split
        · rfl
        · rfl
  · intro hsized
    -- what was recorded takes less than 4 GiB, far below what a vector can hold
    have hroom : 4 * (b.stride.toNat * b.height.toNat) ≤ vectorLimit := by
      have hlength := imageLength_le (write_eq_ok h).1
      unfold imageLength unsignedLimit at hlength
      unfold vectorLimit
      omega
    have hload := load_encode_sized hsized hroom hplace
    refine ⟨by rw [value_loadTraced, hload]; rfl, ?_⟩
    intro width hwidth v score
    have hfits : v.Fits b := ⟨rfl, rfl, hsized⟩
    have hscore := hfits.score_self hwidth
    refine ⟨hscore, ?_⟩
    exact compare_of_score (View.check_eq_ok_iff.mpr (hfits.covers hwidth)) hload hscore

/-- Two rows of three words, asked for as four words, as seven, and as they were recorded. -/
theorem load_of_recorded_sixWords :
    let b : PixelBuffer := ⟨3, 2, #[0xFF000000, 0xFFFF0000, 0xFF00FF00, 0xFF0000FF, 0xFFFFFFFF, 0]⟩
    let p : Path := ⟨"shots/frame.bmp"⟩
    ∃ written, write ⟨[], []⟩ p b = ⟨written, .ok ()⟩ ∧
      (loadTraced written p 2 2).value
        = .ok #[0xFF000000, 0xFFFF0000, 0xFF00FF00, 0xFF0000FF] ∧
      (loadTraced written p 7 1).value = .error (.failure (.referenceTruncated p)) ∧
      (loadTraced written p 3 2).value = .ok b.pixels ∧
      compare written p b.pixels ⟨3, 2, 2⟩ = .ok (Score.ratio ⟨0, 4⟩) := by
  intro b p
  have hb : Recordable b := ⟨rfl, by decide, by decide, by decide⟩
  have hp : Files.Writable ⟨[], []⟩ p := ⟨by decide +kernel, by decide +kernel⟩
  obtain ⟨written, hwrite, -⟩ := load_of_write hb hp
  obtain ⟨hload, hself⟩ := load_of_recorded hwrite
  obtain ⟨hown, hcompare⟩ := hself rfl
  exact ⟨written, hwrite, hload 2 2, hload 7 1, hown, (hcompare 2 (by decide)).2⟩

/-- **A single word, asked for as 2^61.**  The bytes of these can be counted, and the word that was
recorded is not looked at. -/
theorem load_of_recorded_overrun :
    let b : PixelBuffer := ⟨1, 1, #[0]⟩
    let p : Path := ⟨"one.bmp"⟩
    let stride : UInt32 := 0x80000000
    let height : UInt32 := 0x40000000
    ∃ written, write ⟨[], []⟩ p b = ⟨written, .ok ()⟩ ∧
      4 * (stride.toNat * height.toNat) < 2 ^ 64 ∧
      ¬ stride.toNat * height.toNat ≤ b.pixels.size ∧
      (loadTraced written p stride height).value ≠ .error (.failure (.referenceTruncated p)) ∧
      (loadTraced written p stride height).value = .error .overrun := by
  intro b p stride height
  have hb : Recordable b := ⟨rfl, by decide, by decide, by decide⟩
  have hp : Files.Writable ⟨[], []⟩ p := ⟨by decide +kernel, by decide +kernel⟩
  obtain ⟨written, hwrite, place, hplace⟩ := exists_write hb.problem?_eq_none hp
  have hload : (loadTraced written p stride height).value = .error .overrun := by
    rw [value_loadTraced, load_eq_overrun_iff.mpr ⟨⟨_, hplace⟩, by decide, by decide⟩]
    rfl
  refine ⟨written, hwrite, by decide, by decide, ?_, hload⟩
  rw [hload]
  nofun

end Reference

end Golden
