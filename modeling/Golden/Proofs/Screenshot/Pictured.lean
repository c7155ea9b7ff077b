import Golden.Proofs.Files.Written
import Golden.Proofs.Pixel.Pointwise
import Golden.Proofs.Screenshot.Differences
import Golden.Screenshot.DiffPicture

/-!
# Golden.Proofs.Screenshot.Pictured — a picture of the differences agrees with the score

A score goes through two buffers row by row and compares the colours of their words.  A picture is
drawn pixel by pixel and looks for bits of colour in which two words differ.  Neither knows of the
other.  That they agree is shown at three places:

* on a word, where the two tests mean the same (`colours_differ_iff`);
* on a row, where as many pixels are drawn red as there are mismatches in its words
  (`View.differing_drawRow`);
* on the rows, which both go through in the same order (`View.differing_foldl_drawRow`).

What has been drawn is told by position: a drawn pixel is the one to be shown there (`View.shown`),
and no other pixel is touched (`View.pixel?_foldl_drawRow`).

Both begin with the same checks.  **A picture is refused for its sizes exactly when the score is,
and then nothing is written** (`writeDiffPicture_agrees`).
-/

namespace Golden

/-- The colours of two words differ if a bit of their colours does. -/
theorem colours_differ_iff (actual expected : UInt32) :
    (actual ^^^ expected) &&& 0x00FFFFFF ≠ 0 ↔ Pixel.colour actual ≠ Pixel.colour expected := by
  have hdistrib : (actual ^^^ expected) &&& 0x00FFFFFF
      = (actual &&& 0x00FFFFFF) ^^^ (expected &&& 0x00FFFFFF) := by
    apply UInt32.toNat_inj.mp
    simp only [UInt32.toNat_and, UInt32.toNat_xor]
    exact Nat.and_xor_distrib_right
  rw [hdistrib, ne_eq, UInt32.xor_eq_zero_iff]
  rfl

/-! ## Pictures by position -/

namespace Picture

/-- A picture with as many pixels as its size promises. -/
def Sized (p : Picture) : Prop := p.pixels.size = p.width * p.height

variable {p : Picture} {x y x' y' : ℕ} {colour : Rgba}

theorem sized_put (h : p.Sized) : (p.put x y colour).Sized := by
  show (p.pixels.setIfInBounds _ colour).size = p.width * p.height
  rw [Array.size_setIfInBounds]
  exact h

theorem pixel?_put_self (h : p.Sized) (hx : x < p.width) (hy : y < p.height) :
    (p.put x y colour).pixel? x y = some colour := by
  have hplace : y * p.width + x < p.pixels.size := by
    rw [show p.pixels.size = _ from h]
    exact row_end_le hy hx
  rw [pixel?, put, if_pos ⟨hx, hy⟩]
  exact Array.getElem?_setIfInBounds_self_of_lt hplace

/-- Pixels at different positions have different places. -/
theorem pixel?_put_of_ne (hx : x < p.width) (hx' : x' < p.width) (hne : ¬ (y' = y ∧ x' = x)) :
    (p.put x y colour).pixel? x' y' = p.pixel? x' y' := by
  have hplace : y * p.width + x ≠ y' * p.width + x' := by
    intro heq
    by_cases hrow : y' = y
    · subst hrow
      exact hne ⟨rfl, by omega⟩
    · have hapart := row_disjoint hrow hx' (Nat.le_refl p.width)
      omega
  rw [pixel?, pixel?, put, Array.getElem?_setIfInBounds_ne hplace]

end Picture

/-! ## What is drawn -/

namespace View

variable {v : View} {pixels reference : Array UInt32} {d : Drawing}

/-- The pixel that is to be shown in column `x` of row `y`. -/
def shown (v : View) (pixels reference : Array UInt32) (x y : ℕ) : Rgba :=
  if differsAt pixels reference (v.index x y) then differing
  else dimmed (pixels.getD (v.index x y) 0)

/-- A half-transparent pixel is not opaque. -/
theorem dimmed_ne_differing (word : UInt32) : dimmed word ≠ differing := by
  intro heq
  have halpha : (128 : UInt8) = 255 := congrArg Rgba.alpha heq
  exact absurd halpha (by decide)

theorem shown_eq_differing_iff (x y : ℕ) :
    v.shown pixels reference x y = differing
      ↔ differsAt pixels reference (v.index x y) = true := by
  unfold shown
  split
  · rename_i hdiffers
    exact ⟨fun _ => hdiffers, fun _ => rfl⟩
  · rename_i hsame
    exact ⟨fun heq => absurd heq (dimmed_ne_differing _), fun hdiffers => absurd hdiffers hsame⟩

/-- One pixel is drawn as it is to be shown, and counted if it differs. -/
theorem drawPixel_eq (v : View) (pixels reference : Array UInt32) (d : Drawing) (x y : ℕ) :
    v.drawPixel pixels reference y d x
      = ⟨d.picture.put x y (v.shown pixels reference x y),
          d.differing + if differsAt pixels reference (v.index x y) then 1 else 0⟩ := by
  have hdiffers := colours_differ_iff (pixels.getD (v.index x y) 0) (reference.getD (v.index x y) 0)
  unfold drawPixel shown differsAt
  simp only [hdiffers, bne_iff_ne]
  split
  · rfl
  · rfl

/-- A drawing of the view's size. -/
structure Draws (v : View) (d : Drawing) : Prop where
  width_eq : d.picture.width = v.width.toNat
  height_eq : d.picture.height = v.height.toNat
  sized : d.picture.Sized

theorem draws_blank (v : View) : v.Draws ⟨.blank v.width.toNat v.height.toNat, 0⟩ :=
  ⟨rfl, rfl, Array.size_replicate⟩

namespace Draws

variable {x y x' y' : ℕ}

theorem drawPixel (h : v.Draws d) : v.Draws (v.drawPixel pixels reference y d x) := by
  rw [drawPixel_eq]
  exact ⟨h.width_eq, h.height_eq, Picture.sized_put h.sized⟩

theorem foldl_drawPixel (h : v.Draws d) (columns : List ℕ) :
    v.Draws (columns.foldl (v.drawPixel pixels reference y) d) := by
  induction columns generalizing d with
  | nil => exact h
  | cons x rest ih => exact ih h.drawPixel

theorem foldl_drawRow (h : v.Draws d) (rows : List ℕ) :
    v.Draws (rows.foldl (v.drawRow pixels reference) d) := by
  induction rows generalizing d with
  | nil => exact h
  | cons y rest ih => exact ih (h.foldl_drawPixel _)

theorem pixel?_drawPixel (h : v.Draws d) (hx : x < v.width.toNat) (hy : y < v.height.toNat)
    (hx' : x' < v.width.toNat) :
    (v.drawPixel pixels reference y d x).picture.pixel? x' y'
      = if y' = y ∧ x' = x then some (v.shown pixels reference x' y')
        else d.picture.pixel? x' y' := by
  rw [← h.width_eq] at hx hx'
  rw [← h.height_eq] at hy
  rw [drawPixel_eq]
  by_cases hhere : y' = y ∧ x' = x
  · rw [if_pos hhere]
    obtain ⟨rfl, rfl⟩ := hhere
    exact Picture.pixel?_put_self h.sized hx hy
  · rw [if_neg hhere]
    exact Picture.pixel?_put_of_ne hx hx' hhere

/-- Of a row, the columns that are gone through are drawn. -/
theorem pixel?_foldl_drawPixel (h : v.Draws d) {columns : List ℕ}
    (hcolumns : ∀ x ∈ columns, x < v.width.toNat) (hy : y < v.height.toNat)
    (hx' : x' < v.width.toNat) :
    (columns.foldl (v.drawPixel pixels reference y) d).picture.pixel? x' y'
      = if y' = y ∧ x' ∈ columns then some (v.shown pixels reference x' y')
        else d.picture.pixel? x' y' := by
  induction columns generalizing d with
  | nil => simp
  | cons x rest ih =>
      have hx : x < v.width.toNat := hcolumns x List.mem_cons_self
      have hrest : ∀ x ∈ rest, x < v.width.toNat :=
        fun x hmem => hcolumns x (List.mem_cons_of_mem _ hmem)
      rw [List.foldl_cons, ih h.drawPixel hrest, h.pixel?_drawPixel hx hy hx']
      -- a column drawn again is drawn the same
      by_cases hrow : y' = y
      · by_cases hlater : x' ∈ rest
        · simp [hrow, hlater]
        · simp [hrow, hlater]
      · simp [hrow]

/-- Of a drawing, the rows that are gone through are drawn. -/
theorem pixel?_foldl_drawRow (h : v.Draws d) {rows : List ℕ}
    (hrows : ∀ y ∈ rows, y < v.height.toNat) (hx' : x' < v.width.toNat) :
    (rows.foldl (v.drawRow pixels reference) d).picture.pixel? x' y'
      = if y' ∈ rows then some (v.shown pixels reference x' y')
        else d.picture.pixel? x' y' := by
  induction rows generalizing d with
  | nil => simp
  | cons y rest ih =>
      have hy : y < v.height.toNat := hrows y List.mem_cons_self
      have hrest : ∀ y ∈ rest, y < v.height.toNat :=
        fun y hmem => hrows y (List.mem_cons_of_mem _ hmem)
      have hcolumns : ∀ x ∈ List.range v.width.toNat, x < v.width.toNat :=
        fun x hmem => List.mem_range.mp hmem
      have hrow : v.Draws (v.drawRow pixels reference d y) := h.foldl_drawPixel _
      rw [List.foldl_cons, ih hrow hrest, drawRow, h.pixel?_foldl_drawPixel hcolumns hy hx']
      have hcolumn : x' ∈ List.range v.width.toNat := List.mem_range.mpr hx'
      by_cases hlater : y' ∈ rest
      · simp [hlater]
      · simp [hlater, hcolumn]

end Draws

/-! ## What is counted -/

theorem differing_foldl_drawPixel (columns : List ℕ) (y : ℕ) :
    (columns.foldl (v.drawPixel pixels reference y) d).differing
      = d.differing + columns.countP fun x => differsAt pixels reference (v.index x y) := by
  induction columns generalizing d with
  | nil => rfl
  | cons x rest ih =>
      rw [List.foldl_cons, ih, drawPixel_eq, List.countP_cons]
      dsimp only
      omega

/-- **A row has as many differing pixels as mismatched words.** -/
theorem differing_drawRow (ha : v.Covers pixels) (he : v.Covers reference) {y : ℕ}
    (hy : y < v.height.toNat) :
    (v.drawRow pixels reference d y).differing
      = d.differing + v.rowMismatches pixels reference y := by
  rw [drawRow, differing_foldl_drawPixel, rowMismatches, ha.row_eq_map hy, he.row_eq_map hy,
    List.zip_map', List.countP_map]
  rfl

/-- Drawing and scoring count alike, row by row. -/
theorem differing_foldl_drawRow (ha : v.Covers pixels) (he : v.Covers reference) {rows : List ℕ}
    (hrows : ∀ y ∈ rows, y < v.height.toNat) {s : Score} (hs : d.differing = s.mismatched) :
    (rows.foldl (v.drawRow pixels reference) d).differing
      = (rows.foldl (Score.addRow v pixels reference) s).mismatched := by
  induction rows generalizing d s with
  | nil => exact hs
  | cons y rest ih =>
      have hy : y < v.height.toNat := hrows y List.mem_cons_self
      rw [List.foldl_cons, List.foldl_cons]
      apply ih (fun y hmem => hrows y (List.mem_cons_of_mem _ hmem))
      rw [differing_drawRow ha he hy, hs]
      rfl

theorem mem_rowRange_lt (v : View) :
    ∀ y ∈ rowRange v.width.toNat v.height.toNat, y < v.height.toNat :=
  fun _ hmem => (Capture.mem_rowRange.mp hmem).2

theorem draws_draw (v : View) (pixels reference : Array UInt32) :
    v.Draws (v.draw pixels reference) :=
  (draws_blank v).foldl_drawRow _

theorem differing_draw (ha : v.Covers pixels) (he : v.Covers reference) :
    (v.draw pixels reference).differing = (Score.count pixels reference v).mismatched :=
  differing_foldl_drawRow ha he v.mem_rowRange_lt rfl

/-- Every pixel of the view is shown. -/
theorem pixel?_draw {x y : ℕ} (hx : x < v.width.toNat) (hy : y < v.height.toNat) :
    (v.draw pixels reference).picture.pixel? x y = some (v.shown pixels reference x y) := by
  have hrow : y ∈ rowRange v.width.toNat v.height.toNat :=
    Capture.mem_rowRange.mpr ⟨Nat.ne_of_gt (Nat.zero_lt_of_lt hx), hy⟩
  rw [draw, (draws_blank v).pixel?_foldl_drawRow v.mem_rowRange_lt hx, if_pos hrow]

end View

/-! ## Scores that are refused, and scores that are not -/

namespace Score

variable {v : View} {pixels reference : Array UInt32}

theorem exists_ofPixels_eq_error (h : ¬ (v.Covers pixels ∧ v.Covers reference)) :
    ∃ problem, ofPixels pixels reference v = .error (.buffer problem) := by
  by_cases hpixels : v.Covers pixels
  · have hreference : ¬ v.Covers reference := fun hcovers => h ⟨hpixels, hcovers⟩
    obtain ⟨problem, hproblem⟩ := View.exists_check_eq_error hreference
    refine ⟨problem, ?_⟩
    rw [ofPixels, View.check_eq_ok_iff.mpr hpixels, hproblem]
    rfl
  · obtain ⟨problem, hproblem⟩ := View.exists_check_eq_error hpixels
    refine ⟨problem, ?_⟩
    rw [ofPixels, hproblem]
    rfl

/-- What is scored covers the view on both sides. -/
theorem covers_of_ofPixels {score : Score} (h : ofPixels pixels reference v = .ok score) :
    v.Covers pixels ∧ v.Covers reference := by
  by_contra hrefused
  obtain ⟨problem, hproblem⟩ := exists_ofPixels_eq_error hrefused
  rw [hproblem] at h
  cases h

theorem ofPixels_eq_error_iff :
    (∃ problem, ofPixels pixels reference v = .error (.buffer problem)) ↔
      pixels.size < v.words ∨ reference.size < v.words ∨ v.stride < v.width := by
  constructor
  · rintro ⟨problem, hproblem⟩
    by_contra hsizes
    rw [not_or, not_or, Nat.not_lt, Nat.not_lt, UInt32.not_lt] at hsizes
    obtain ⟨hpixels, hreference, hwidth⟩ := hsizes
    rw [ofPixels_of_covers ⟨hpixels, hwidth⟩ ⟨hreference, hwidth⟩] at hproblem
    cases hproblem
  · intro hsizes
    apply exists_ofPixels_eq_error
    rintro ⟨hpixels, hreference⟩
    rcases hsizes with hsize | hsize | hwidth
    · exact Nat.not_lt_of_le hpixels.size_le hsize
    · exact Nat.not_lt_of_le hreference.size_le hsize
    · exact UInt32.not_lt.mpr hpixels.width_le hwidth

/-- It makes no difference which of two buffers is called the reference. -/
theorem count_comm (hpixels : v.Covers pixels) (hreference : v.Covers reference) :
    count reference pixels v = count pixels reference v := by
  rw [count_eq_card hpixels hreference, count_eq_card hreference hpixels]
  congr 2
  apply Finset.filter_congr
  rintro ⟨x, y⟩ _
  dsimp only
  rw [View.differsAt, View.differsAt, bne_iff_ne, bne_iff_ne]
  exact ne_comm

theorem mismatched_count_le (hpixels : v.Covers pixels) (hreference : v.Covers reference) :
    (count pixels reference v).mismatched ≤ (count pixels reference v).compared := by
  rw [count_eq_card hpixels hreference]
  refine Nat.le_trans (Finset.card_filter_le _ _) ?_
  rw [Finset.card_product, Finset.card_range, Finset.card_range]

end Score

/-- **A drawing is refused exactly when a score is, and for the same reason.** -/
theorem View.drawingOf_eq (v : View) (pixels reference : Array UInt32) :
    v.drawingOf pixels reference
      = (Score.ofPixels pixels reference v).map fun _ => v.draw pixels reference := by
  unfold drawingOf Score.ofPixels
  cases v.check pixels with
  | error failure => rfl
  | ok checked =>
      cases v.check reference with
      | error failure => rfl
      | ok checked' => rfl

/-! ## What is written -/

namespace Picture

variable {fs written : Files} {p : Path} {picture : Picture}

/-- Storing a picture never fails for the size of a buffer. -/
theorem outcome_write_ne_buffer (fs : Files) (p : Path) (picture : Picture)
    (problem : BufferProblem) : (write fs p picture).outcome ≠ .error (.buffer problem) := by
  intro h
  unfold write at h
  split at h
  · cases h
  · dsimp only at h
    split at h
    · cases h
    · split at h
      · cases h
      · split at h
        · cases h
        · cases h

/-- A picture that has pixels is stored wherever a file of its name can be written. -/
theorem write_of_pixels (hname : isPictureName p = true) (hwidth : picture.width ≠ 0)
    (hheight : picture.height ≠ 0) (h : fs.write p (.picture picture) = .ok written) :
    write fs p picture = ⟨written, .ok ()⟩ := by
  have hpixels : ¬ (picture.width = 0 ∨ picture.height = 0) :=
    fun hnone => hnone.elim hwidth hheight
  have hnamed : ¬ (!isPictureName p) = true := by simp [hname]
  rw [write, if_neg hnamed]
  simp only [if_neg hpixels, h, if_neg hwidth, if_neg hheight]

end Picture

variable {fs : Files} {p : Path} {pixels reference : Array UInt32} {v : View}

theorem writeDiffPicture_of_error {failure : Failure}
    (h : Score.ofPixels pixels reference v = .error failure) :
    writeDiffPicture fs p pixels reference v = ⟨fs, .error failure⟩ := by
  rw [writeDiffPicture, View.drawingOf_eq, h]
  rfl

/-- Once the sizes are right, whatever else goes wrong is another failure. -/
theorem outcome_writeDiffPicture_ne_buffer {score : Score}
    (h : Score.ofPixels pixels reference v = .ok score) (problem : BufferProblem) :
    (writeDiffPicture fs p pixels reference v).outcome ≠ .error (.buffer problem) := by
  intro hproblem
  rw [writeDiffPicture, View.drawingOf_eq, h] at hproblem
  dsimp only [Except.map] at hproblem
  split at hproblem
  · cases hproblem
  · have hstored := Picture.outcome_write_ne_buffer (fs.makeParent p).files p
      (v.draw pixels reference).picture problem
    dsimp only at hproblem
    cases houtcome : ((v.draw pixels reference).picture.write (fs.makeParent p).files p).outcome with
    | error failure =>
        rw [houtcome] at hproblem hstored
        cases hproblem
        exact hstored rfl
    | ok stored =>
        rw [houtcome] at hproblem
        cases hproblem

/-- Where a picture can be written, the drawing is, and its differing pixels are the outcome. -/
theorem writeDiffPicture_of_writable (hpixels : v.Covers pixels) (hreference : v.Covers reference)
    (hwidth : 0 < v.width.toNat) (hheight : 0 < v.height.toNat)
    (hname : Picture.isPictureName p = true) (hp : fs.Writable p) :
    ∃ written, writeDiffPicture fs p pixels reference v
        = ⟨written, .ok (Score.count pixels reference v).mismatched⟩ ∧
      ∃ place, written.resolve p
        = .ok (place, .file (.picture (v.draw pixels reference).picture)) := by
  have hdraws := v.draws_draw pixels reference
  obtain ⟨written, hwritten⟩ := hp.exists_write (.picture (v.draw pixels reference).picture)
  have hstored : (v.draw pixels reference).picture.write (fs.makeParent p).files p
      = ⟨written, .ok ()⟩ := by
    apply Picture.write_of_pixels hname _ _ hwritten
    · rw [hdraws.width_eq]
      exact Nat.ne_of_gt hwidth
    · rw [hdraws.height_eq]
      exact Nat.ne_of_gt hheight
  refine ⟨written, ?_, Files.resolve_of_write hwritten⟩
  rw [writeDiffPicture, View.drawingOf_eq, Score.ofPixels_of_covers hpixels hreference]
  simp only [Except.map, hp.made, hstored, View.differing_draw hpixels hreference]

/-- A picture that shows where two buffers differ under a view, and how often. -/
structure View.Pictures (v : View) (pixels reference : Array UInt32) (picture : Picture) : Prop where
  width_eq : picture.width = v.width.toNat
  height_eq : picture.height = v.height.toNat
  /-- A pixel is opaque red exactly where the colours differ. -/
  red_iff : ∀ x < v.width.toNat, ∀ y < v.height.toNat,
    let i := y * v.stride.toNat + x
    picture.pixel? x y = some ⟨255, 0, 0, 255⟩ ↔
      Pixel.colour (pixels.getD i 0) ≠ Pixel.colour (reference.getD i 0)
  /-- Elsewhere it is the actual one at half its brightness. -/
  halved : ∀ x < v.width.toNat, ∀ y < v.height.toNat,
    let i := y * v.stride.toNat + x
    let word := pixels.getD i 0
    Pixel.colour word = Pixel.colour (reference.getD i 0) →
      picture.pixel? x y
        = some ⟨(word >>> 16).toUInt8 / 2, (word >>> 8).toUInt8 / 2, word.toUInt8 / 2, 128⟩
  reds : ((Finset.range v.width.toNat ×ˢ Finset.range v.height.toNat).filter fun (x, y) =>
      picture.pixel? x y = some ⟨255, 0, 0, 255⟩).card = (Score.count pixels reference v).mismatched

theorem View.pictures_draw (hpixels : v.Covers pixels) (hreference : v.Covers reference) :
    v.Pictures pixels reference (v.draw pixels reference).picture := by
  have hdraws := v.draws_draw pixels reference
  have hred : ∀ x < v.width.toNat, ∀ y < v.height.toNat,
      (v.draw pixels reference).picture.pixel? x y = some ⟨255, 0, 0, 255⟩ ↔
        differsAt pixels reference (v.index x y) = true := by
    intro x hx y hy
    rw [pixel?_draw hx hy, Option.some_inj]
    exact shown_eq_differing_iff x y
  refine ⟨hdraws.width_eq, hdraws.height_eq, ?_, ?_, ?_⟩
  · intro x hx y hy i
    rw [hred x hx y hy, differsAt, bne_iff_ne]
    rfl
  · intro x hx y hy i word hsame
    have hagree : differsAt pixels reference (v.index x y) ≠ true := by
      rw [differsAt, ne_eq, bne_iff_ne, not_not]
      exact hsame
    rw [pixel?_draw hx hy, shown, if_neg hagree]
    rfl
  · rw [Score.count_eq_card hpixels hreference]
    apply congrArg Finset.card
    apply Finset.filter_congr
    rintro ⟨x, y⟩ hposition
    obtain ⟨hx, hy⟩ := Finset.mem_product.mp hposition
    rw [Finset.mem_range] at hx hy
    exact hred x hx y hy

/-- **The score and the picture of the differences agree.**  Both refuse the same buffers, and for
the same problem of their sizes; a picture that is refused leaves the files as they were.  A score
that is not refused counts at most the compared pixels, which are those of the view, and either of
the two buffers may be called the reference.  And if a picture of the view has any pixels and can be
written, then it is: it shows red as many pixels as the score counts, at the positions where the
colours differ, and its writing reports that number. -/
theorem writeDiffPicture_agrees (fs : Files) (p : Path) (pixels reference : Array UInt32)
    (v : View) :
    let scored := Score.ofPixels pixels reference v
    let attempt := writeDiffPicture fs p pixels reference v
    ((∃ problem, scored = .error (.buffer problem)) ↔
      pixels.size < v.words ∨ reference.size < v.words ∨ v.stride < v.width) ∧
    (∀ problem, attempt.outcome = .error (.buffer problem) ↔
      scored = .error (.buffer problem)) ∧
    (∀ failure, scored = .error failure → attempt = ⟨fs, .error failure⟩) ∧
    ∀ score, scored = .ok score →
      score.mismatched ≤ score.compared ∧
      score.compared = v.width.toNat * v.height.toNat ∧
      Score.ofPixels reference pixels v = .ok score ∧
      (0 < v.width.toNat → 0 < v.height.toNat → Picture.isPictureName p = true → fs.Writable p →
        attempt.outcome = .ok score.mismatched ∧
        ∃ place picture, attempt.files.resolve p = .ok (place, .file (.picture picture)) ∧
          v.Pictures pixels reference picture) := by
  intro scored attempt
  refine ⟨Score.ofPixels_eq_error_iff, ?_, fun failure => writeDiffPicture_of_error, ?_⟩
  · intro problem
    constructor
    · intro hproblem
      cases hscored : scored with
      | error failure =>
          have hattempt : attempt = ⟨fs, .error failure⟩ := writeDiffPicture_of_error hscored
          rw [hattempt] at hproblem
          exact congrArg Except.error (Except.error.inj hproblem)
      | ok score => exact absurd hproblem (outcome_writeDiffPicture_ne_buffer hscored problem)
    · intro hproblem
      exact congrArg Attempt.outcome (writeDiffPicture_of_error hproblem)
  · intro score hscored
    obtain ⟨hpixels, hreference⟩ := Score.covers_of_ofPixels hscored
    have hscore : score = Score.count pixels reference v :=
      Except.ok.inj (hscored.symm.trans (Score.ofPixels_of_covers hpixels hreference))
    subst hscore
    refine ⟨Score.mismatched_count_le hpixels hreference, ?_, ?_, ?_⟩
    · rw [Score.count_eq_card hpixels hreference]
    · rw [Score.ofPixels_of_covers hreference hpixels, Score.count_comm hpixels hreference]
    · intro hwidth hheight hname hp
      obtain ⟨written, hwrite, place, hplace⟩ :=
        writeDiffPicture_of_writable hpixels hreference hwidth hheight hname hp
      have hattempt : attempt = ⟨written, _⟩ := hwrite
      rw [hattempt]
      exact ⟨rfl, place, _, hplace, View.pictures_draw hpixels hreference⟩

/-- Of two rows of two compared pixels in a stride of three, one pixel differs by more than alpha. -/
theorem writeDiffPicture_agrees_oneOfFour :
    let pixels : Array UInt32 := #[0xFF102030, 0xFFFFFFFF, 9, 1, 2, 9]
    let reference : Array UInt32 := #[0x00102030, 0xFF000000, 0, 1, 2, 0]
    let p : Path := ⟨"diffs/frame-diff.png"⟩
    let attempt := writeDiffPicture ⟨[], []⟩ p pixels reference ⟨3, 2, 2⟩
    attempt.outcome = .ok 1 ∧
      ∃ place picture, attempt.files.resolve p = .ok (place, .file (.picture picture)) ∧
        picture.pixel? 1 0 = some ⟨255, 0, 0, 255⟩ ∧ picture.pixel? 0 0 = some ⟨8, 16, 24, 128⟩ := by
  intro pixels reference p attempt
  have hcount : Score.count pixels reference ⟨3, 2, 2⟩ = ⟨1, 4⟩ := by decide +kernel
  have hscored : Score.ofPixels pixels reference ⟨3, 2, 2⟩ = .ok ⟨1, 4⟩ := by
    rw [Score.ofPixels_of_covers (by decide) (by decide), hcount]
  have hname : Picture.isPictureName p = true := by decide +kernel
  have hp : Files.Writable ⟨[], []⟩ p := ⟨by decide +kernel, by decide +kernel⟩
  obtain ⟨-, -, -, haccepted⟩ := writeDiffPicture_agrees ⟨[], []⟩ p pixels reference ⟨3, 2, 2⟩
  obtain ⟨-, -, -, hwritten⟩ := haccepted _ hscored
  obtain ⟨houtcome, place, picture, hplace, hpicture⟩ :=
    hwritten (by decide) (by decide) hname hp
  refine ⟨houtcome, place, picture, hplace, ?_, ?_⟩
  · exact (hpicture.red_iff 1 (by decide) 0 (by decide)).mpr (by decide)
  · rw [hpicture.halved 0 (by decide) 0 (by decide) (by decide)]
    decide

end Golden
