import Golden.Proofs.Comparison.Report
import Golden.Proofs.Screenshot.Differences

/-!
# Golden.Proofs.Screenshot.Classified — what comparing pixels can come to

Comparing pixels with a reference comes to one of four outcomes, and which one it is can be told
without running the comparison (`Reference.Classified`).  The sizes decide first, then whether the
reference can be opened, then whether it is long enough for the view; what is left is a ratio.  The
ratio is told by positions: pixel `i` is compared with the four bytes from `54 + 4 · i` on
(`Reference.wordAt`), and only at the positions of the viewed rectangle.  So neither the header nor
what lies behind the last word, nor a column beyond the compared ones, nor alpha has a say in it.

A verifier that is given the same pixels reports the same outcome
(`Reference.compare_classified`), since both go the same way (`Comparison.report_ofPixels`).  On
that way the words of the reference are checked once more.  As many words as the view takes have
been loaded by then, so that check only repeats the first one (`Reference.covers_of_load`).

The pixels are assumed to be few enough for a vector to hold their bytes, as they are wherever they
come from.  Then so are the words of every view that they cover, and nothing overruns.
-/

namespace Golden

/-- What can be read of an entry.  Of a directory it is nothing, which makes it too short for every
view that takes words, and no different from an empty file for one that takes none. -/
def Entry.bytes : Entry → List UInt8
  | .file content => content.bytes
  | .directory => []

theorem View.not_covers_iff {v : View} {pixels : Array UInt32} :
    ¬ v.Covers pixels ↔ pixels.size < v.words ∨ v.stride < v.width := by
  constructor
  · intro h
    by_contra hneither
    rw [not_or, Nat.not_lt, UInt32.not_lt] at hneither
    exact h ⟨hneither.1, hneither.2⟩
  · rintro (hsize | hwidth) h
    · exact Nat.not_lt_of_le h.size_le hsize
    · exact UInt32.not_lt.mpr h.width_le hwidth

namespace Reference

/-! ## Words by position -/

/-- The word at position `i` behind the header of a bitmap. -/
def wordAt (bytes : List UInt8) (i : ℕ) : UInt32 := littleEndian ((bytes.drop (54 + 4 * i)).take 4)

theorem length_wordsOf (count : ℕ) (bytes : List UInt8) : (wordsOf count bytes).length = count := by
  induction count generalizing bytes with
  | zero => rfl
  | succ count ih => rw [wordsOf, List.length_cons, ih]

theorem getElem?_wordsOf {count i : ℕ} (h : i < count) (bytes : List UInt8) :
    (wordsOf count bytes)[i]? = some (littleEndian ((bytes.drop (4 * i)).take 4)) := by
  induction count generalizing i bytes with
  | zero => omega
  | succ count ih =>
      rw [wordsOf]
      cases i with
      | zero => rfl
      | succ i =>
          rw [List.getElem?_cons_succ, ih (Nat.lt_of_succ_lt_succ h), List.drop_drop,
            Nat.mul_succ, Nat.add_comm 4]

/-- A loaded word is the word at its position. -/
theorem getD_wordsOf {count i : ℕ} (h : i < count) (bytes : List UInt8) :
    (wordsOf count (bytes.drop headerLength)).toArray.getD i 0 = wordAt bytes i := by
  rw [Array.getD_eq_getD_getElem?, List.getElem?_toArray, getElem?_wordsOf h, Option.getD_some,
    List.drop_drop]
  rfl

/-! ## Loading -/

/-- A reference that ends before the words a view takes.  A view without words asks for nothing. -/
def TooShort (v : View) (bytes : List UInt8) : Prop :=
  0 < v.words ∧ bytes.length < 54 + 4 * v.words

variable {fs : Files} {p : Path} {v : View} {place : Place} {entry : Entry} {pixels : Array UInt32}

theorem load_of_missing {cause : Cause} (h : fs.resolve p = .error cause) :
    load fs p v.stride v.height = .error (.opening cause) := by
  rw [load, h]

theorem load_of_tooShort (hroom : 4 * v.words ≤ vectorLimit)
    (h : fs.resolve p = .ok (place, entry)) (hshort : TooShort v entry.bytes) :
    ∃ cause, load fs p v.stride v.height = .error (.reading cause) := by
  obtain ⟨hwords, hlength⟩ := hshort
  have haddress := Nat.not_le_of_lt (Nat.lt_of_le_of_lt hroom vectorLimit_lt)
  unfold View.words at *
  rw [load, h]
  dsimp only
  rw [if_neg haddress, if_neg (Nat.not_lt_of_le hroom), if_neg (Nat.ne_of_gt hwords)]
  cases entry with
  | directory => exact ⟨.isADirectory, rfl⟩
  | file content =>
      dsimp only [Entry.bytes] at hlength ⊢
      refine ⟨.endOfData, if_pos ?_⟩
      rw [List.length_drop, headerLength]
      omega

theorem load_of_enough (hroom : 4 * v.words ≤ vectorLimit)
    (h : fs.resolve p = .ok (place, entry)) (henough : ¬ TooShort v entry.bytes) :
    load fs p v.stride v.height
      = .ok (wordsOf v.words (entry.bytes.drop headerLength)).toArray := by
  have haddress := Nat.not_le_of_lt (Nat.lt_of_le_of_lt hroom vectorLimit_lt)
  unfold TooShort View.words at *
  rw [load, h]
  dsimp only
  rw [if_neg haddress, if_neg (Nat.not_lt_of_le hroom)]
  by_cases hwords : v.stride.toNat * v.height.toNat = 0
  · -- nothing is read, whatever there is
    rw [if_pos hwords, hwords]
    rfl
  · rw [if_neg hwords]
    cases entry with
    | directory =>
        dsimp only [Entry.bytes, List.length_nil] at henough
        omega
    | file content =>
        dsimp only [Entry.bytes] at henough ⊢
        rw [if_neg]
        rw [List.length_drop, headerLength]
        omega

/-- **A reference that has been loaded passes the check that the pixels have passed.** -/
theorem covers_of_load {words : Array UInt32} (hpixels : v.Covers pixels)
    (h : load fs p v.stride v.height = .ok words) : v.Covers words := by
  -- whichever way a load succeeds, it has as many words as were asked for
  have hlength : words.size = v.words := by
    unfold load at h
    split at h
    · cases h
    · dsimp only at h
      split at h
      · cases h
      · split at h
        · cases h
        · split at h
          · rename_i hempty
            cases h
            exact hempty.symm
          · split at h
            · cases h
            · split at h
              · cases h
              · cases h
                rw [List.size_toArray, length_wordsOf]
                rfl
  exact ⟨hlength.ge, hpixels.width_le⟩

/-! ## The four outcomes -/

/-- The score of pixels against the words of a bitmap, by the positions of the viewed rectangle. -/
def scoreAgainst (v : View) (pixels : Array UInt32) (bytes : List UInt8) : Score :=
  ⟨((Finset.range v.width.toNat ×ˢ Finset.range v.height.toNat).filter fun (x, y) =>
      Pixel.colour (pixels.getD (v.index x y) 0) ≠ Pixel.colour (wordAt bytes (v.index x y))).card,
    v.width.toNat * v.height.toNat⟩

theorem compare_of_not_covers (fs : Files) (p : Path) (h : ¬ v.Covers pixels) :
    ∃ problem, compare fs p pixels v = .error (.failure (.buffer problem)) := by
  obtain ⟨problem, hproblem⟩ := View.exists_check_eq_error h
  refine ⟨problem, ?_⟩
  rw [compare, hproblem]
  rfl

theorem compare_of_missing (hcovers : v.Covers pixels) {cause : Cause}
    (h : fs.resolve p = .error cause) :
    compare fs p pixels v = .error (.failure (.referenceMissing p)) := by
  rw [compare, View.check_eq_ok_iff.mpr hcovers, value_loadTraced, load_of_missing h]
  rfl

theorem compare_of_tooShort (hcovers : v.Covers pixels) (hroom : 4 * v.words ≤ vectorLimit)
    (h : fs.resolve p = .ok (place, entry)) (hshort : TooShort v entry.bytes) :
    compare fs p pixels v = .error (.failure (.referenceTruncated p)) := by
  obtain ⟨cause, hload⟩ := load_of_tooShort hroom h hshort
  rw [compare, View.check_eq_ok_iff.mpr hcovers, value_loadTraced, hload]
  rfl

theorem compare_of_enough (hcovers : v.Covers pixels) (hroom : 4 * v.words ≤ vectorLimit)
    (h : fs.resolve p = .ok (place, entry)) (henough : ¬ TooShort v entry.bytes) :
    compare fs p pixels v = .ok (scoreAgainst v pixels entry.bytes).ratio := by
  have hload := load_of_enough hroom h henough
  have hwords := covers_of_load hcovers hload
  have hscore : Score.count pixels (wordsOf v.words (entry.bytes.drop headerLength)).toArray v
      = scoreAgainst v pixels entry.bytes := by
    rw [Score.count_eq_card hcovers hwords, scoreAgainst]
    congr 2
    apply Finset.filter_congr
    rintro ⟨x, y⟩ hposition
    obtain ⟨hx, hy⟩ := Finset.mem_product.mp hposition
    rw [Finset.mem_range] at hx hy
    -- a compared position lies within the loaded words
    dsimp only
    rw [View.differsAt, getD_wordsOf (View.index_lt hcovers.width_le hx hy), bne_iff_ne]
  rw [← hscore]
  exact compare_of_score (View.check_eq_ok_iff.mpr hcovers) hload
    (Score.ofPixels_of_covers hcovers hwords)

/-- The outcome of comparing pixels with a reference, told by sizes, bytes and positions. -/
structure Classified (fs : Files) (p : Path) (pixels : Array UInt32) (v : View)
    (outcome : Except Failure Float) : Prop where
  buffer : (∃ problem, outcome = .error (.buffer problem)) ↔
    pixels.size < v.words ∨ v.stride < v.width
  missing : outcome = .error (.referenceMissing p) ↔
    v.Covers pixels ∧ ∃ cause, fs.resolve p = .error cause
  truncated : outcome = .error (.referenceTruncated p) ↔
    v.Covers pixels ∧ ∃ place entry, fs.resolve p = .ok (place, entry) ∧ TooShort v entry.bytes
  scored (ratio : Float) : outcome = .ok ratio ↔
    v.Covers pixels ∧ ∃ place entry, fs.resolve p = .ok (place, entry) ∧
      ¬ TooShort v entry.bytes ∧ (scoreAgainst v pixels entry.bytes).ratio = ratio

/-- What comparing comes to is one of the four outcomes as long as the words of a view that the
pixels cover are no more than a vector can hold. -/
theorem exists_classified (hroom : v.Covers pixels → 4 * v.words ≤ vectorLimit) :
    ∃ outcome : Except Failure Float, compare fs p pixels v = outcome.mapError .failure ∧
      Classified fs p pixels v outcome := by
  -- the conditions exclude each other, so knowing one outcome settles all four equivalences
  by_cases hcovers : v.Covers pixels
  · specialize hroom hcovers
    have hsizes := (not_iff_not.mpr View.not_covers_iff).mp (not_not.mpr hcovers)
    cases hresolve : fs.resolve p with
    | error cause =>
        refine ⟨.error (.referenceMissing p), compare_of_missing hcovers hresolve, ?_⟩
        constructor <;> simp [hcovers, hresolve, hsizes]
    | ok found =>
        obtain ⟨place, entry⟩ := found
        by_cases hshort : TooShort v entry.bytes
        · refine ⟨.error (.referenceTruncated p),
            compare_of_tooShort hcovers hroom hresolve hshort, ?_⟩
          constructor <;> simp [hcovers, hresolve, hsizes, hshort]
        · refine ⟨.ok (scoreAgainst v pixels entry.bytes).ratio,
            compare_of_enough hcovers hroom hresolve hshort, ?_⟩
          constructor <;> simp [hcovers, hresolve, hsizes, hshort]
  · obtain ⟨problem, hproblem⟩ := compare_of_not_covers fs p hcovers
    refine ⟨.error (.buffer problem), hproblem, ?_⟩
    constructor <;> simp [hcovers, View.not_covers_iff.mp hcovers]

/-- **What comparing pixels with a reference comes to.**  It never overruns.  The outcome is told by
the sizes, the reference that can or cannot be opened, its length, and the positions that differ.
Once a reference is loaded, its words pass the check that the pixels have passed.  And every
verifier reports that outcome: the ratio or the sentinel, the failure in words if there is one, and a
pass exactly if there is a ratio and it is tolerated. -/
theorem compare_classified (fs : Files) (p : Path) (v : View) {pixels : Array UInt32}
    (hsize : pixels.size < 2 ^ 61) :
    ∃ outcome : Except Failure Float, compare fs p pixels v = outcome.mapError .failure ∧
      Classified fs p pixels v outcome ∧
      (∀ words, v.check pixels = .ok () → load fs p v.stride v.height = .ok words →
        v.check words = .ok ()) ∧
      ∀ (verifier : Verifier) (audience : Audience) (test : String),
        ∃ report, (verifier.comparePixels fs audience test pixels v p).value.report = some report ∧
          report.errorRatio = some (Score.ratioOrSentinel outcome) ∧
          report.error = (match outcome with
            | .ok _ => none
            | .error failure => some failure.message) ∧
          (report.passed = true ↔
            ∃ ratio, outcome = .ok ratio ∧ ratio ≤ verifier.config.maxErrorRatio) := by
  have hroom : v.Covers pixels → 4 * v.words ≤ vectorLimit := by
    -- there are no more words than pixels
    intro hcovers
    have hwords := hcovers.size_le
    unfold vectorLimit
    omega
  obtain ⟨outcome, houtcome, hclassified⟩ := exists_classified hroom
  refine ⟨outcome, houtcome, hclassified, ?_, ?_⟩
  · intro words hpixels hload
    exact View.check_eq_ok_iff.mpr (covers_of_load (View.check_eq_ok_iff.mp hpixels) hload)
  · intro verifier audience test
    rw [Verifier.comparePixels_eq_tellIfAny, Verifier.report_tellIfAny,
      Comparison.report_ofPixels, houtcome]
    cases outcome with
    | error failure => exact ⟨_, rfl, rfl, rfl, by simp [Report.failed]⟩
    | ok ratio => exact ⟨_, rfl, rfl, rfl, by simp⟩

/-- A reference behind a header of sevens, with one byte too many at its end. -/
def twoRows : List UInt8 :=
  List.replicate 54 7 ++ [1, 0, 0, 0xFF, 5, 5, 5, 5, 3, 0, 0, 0, 6, 6, 6, 6, 9]

/-- Of two compared pixels, each with a padding column next to it, the second one differs. -/
theorem compare_twoRows :
    let fs : Files := ⟨[(["ref.bmp"], .file (.raw twoRows))], []⟩
    let pixels : Array UInt32 := #[0x00000001, 8, 0x00000002, 8]
    pixels.size < 2 ^ 61 ∧
      compare fs ⟨"ref.bmp"⟩ pixels ⟨2, 1, 2⟩ = .ok (Score.ratio ⟨1, 2⟩) := by
  intro fs pixels
  have hsize : pixels.size < 2 ^ 61 := by decide
  obtain ⟨outcome, houtcome, hclassified, -, -⟩ := compare_classified fs ⟨"ref.bmp"⟩ ⟨2, 1, 2⟩ hsize
  have hfound : fs.resolve ⟨"ref.bmp"⟩ = .ok (["ref.bmp"], .file (.raw twoRows)) := by
    decide +kernel
  have henough : ¬ TooShort ⟨2, 1, 2⟩ twoRows := by
    unfold TooShort
    decide
  have hscore : scoreAgainst ⟨2, 1, 2⟩ pixels twoRows = ⟨1, 2⟩ := by
    decide +kernel
  have hratio : outcome = .ok (Score.ratio ⟨1, 2⟩) :=
    (hclassified.scored _).mpr
      ⟨by decide, _, _, hfound, henough, congrArg Score.ratio hscore⟩
  refine ⟨hsize, ?_⟩
  rw [houtcome, hratio]
  rfl

end Reference

end Golden
