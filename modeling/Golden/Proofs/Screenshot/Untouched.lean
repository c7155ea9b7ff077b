import Golden.Proofs.Files.Changed
import Golden.Proofs.Pixel.Pointwise
import Golden.Proofs.Screenshot.Blessed
import Golden.Proofs.Screenshot.Header

/-!
# Golden.Proofs.Screenshot.Untouched — a refused recording leaves everything as it was

A capture is judged twice on its way to a reference: by its tag and its size before it is brought
into canonical form, and by the size of the view before the form is written.  Both come before the
first directory is made, so **a recording that is refused has touched nothing**: whatever stood at
its path is still loaded and compared as before.  A capture is refused exactly if it is not
`Admitted`, which is what passing all five tests comes to, unless the view is `Overlong` for it
(`Recording.isRefused_iff`).  Then the recording is broken off between the two judgements, and has
touched nothing either.

A recording that succeeds has written one file, where its path leads to, and nothing else but
directories on the way there.  What else can happen to a recording happens to the files themselves
(`Reference.outcome_write`).
-/

namespace Golden

/-! ## Canonical forms -/

namespace Capture

variable {c : Capture}

/-- A capture is judged by its tag and its size before anything else. -/
theorem isBufferFormat_of_checkedFormat {failure : Failure}
    (h : c.checkedFormat = .error failure) : failure.isBufferFormat := by
  unfold checkedFormat at h
  split at h
  · cases h
    rfl
  · split at h
    · cases h
      rfl
    · split at h
      · cases h
        rfl
      · cases h

/-- A capture has a canonical form, or it is refused, or the form is too long. -/
theorem normalize_cases (c : Capture) (v : View) :
    (∃ format b, c.Complete format ∧ ¬ c.Overlong v ∧ c.normalize v.stride v.height = .ok b ∧
      v.Fits b) ∨
    (∃ failure, (∀ format, ¬ c.Complete format) ∧
      c.normalize v.stride v.height = .error (.failure failure) ∧ failure.isBufferFormat) ∨
    (c.Overlong v ∧ c.normalize v.stride v.height = .error .overrun) := by
  by_cases hcomplete : ∃ format, c.Complete format
  · obtain ⟨format, hcomplete⟩ := hcomplete
    rcases Nat.lt_or_ge vectorLimit (4 * (v.stride.toNat * v.height.toNat)) with hlong | hroom
    · exact Or.inr (Or.inr ⟨⟨⟨format, hcomplete⟩, hlong⟩, normalize_of_overlong hcomplete hlong⟩)
    · obtain ⟨b, hb, hstride, hheight, hsized⟩ := normalize_of_complete hcomplete hroom
      exact Or.inl ⟨format, b, hcomplete, fun hlong => Nat.not_lt_of_le hroom hlong.2, hb,
        hstride, hheight, hsized⟩
  · rw [not_exists] at hcomplete
    obtain ⟨failure, hchecked, hb⟩ := normalize_of_not_complete hcomplete v.stride v.height
    exact Or.inr (Or.inl ⟨failure, hcomplete, hb, isBufferFormat_of_checkedFormat hchecked⟩)

/-- A capture that can be recorded in a view: it is complete, and the view can be described by the
header of a bitmap. -/
structure Admitted (c : Capture) (v : View) (format : PixelFormat) : Prop
    extends c.Complete format where
  stride_le : v.stride.toNat ≤ Reference.signedLimit
  height_le : v.height.toNat ≤ Reference.signedLimit
  length_le : 4 * (v.stride.toNat * v.height.toNat) ≤ Reference.unsignedLimit

theorem Overlong.not_admitted {v : View} (h : c.Overlong v) (format : PixelFormat) :
    ¬ c.Admitted v format := by
  intro hadmitted
  have hlong := h.2
  have hlength := hadmitted.length_le
  unfold vectorLimit at hlong
  unfold Reference.unsignedLimit at hlength
  omega

end Capture

/-! ## Writing a reference -/

namespace Reference

variable {fs : Files} {p : Path} {b : PixelBuffer}

/-- What comes of writing a buffer: it is refused in advance, or something is the matter with the
files, or it is written. -/
theorem outcome_write (fs : Files) (p : Path) (b : PixelBuffer) :
    (∃ problem, problem? b = some problem ∧ write fs p b = ⟨fs, .error (.buffer problem)⟩) ∨
    (problem? b = none ∧ ¬ fs.Writable p ∧
      ∃ cause, (write fs p b).outcome = .error (.io cause)) ∨
    (problem? b = none ∧ ∃ written, write fs p b = ⟨written, .ok ()⟩) := by
  cases hproblem : problem? b with
  | some problem => exact Or.inl ⟨problem, rfl, by rw [write, hproblem]⟩
  | none =>
      right
      by_cases hp : fs.Writable p
      · obtain ⟨written, hwrite, -⟩ := exists_write hproblem hp
        exact Or.inr ⟨rfl, written, hwrite⟩
      · unfold write
        rw [hproblem]
        dsimp only
        split
        · rename_i cause _
          exact Or.inl ⟨rfl, hp, cause, rfl⟩
        · split
          · rename_i cause _
            exact Or.inl ⟨rfl, hp, cause, rfl⟩
          · rename_i written _
            exact Or.inr ⟨rfl, written, rfl⟩

/-- **A recording changes one file**, the one its path leads to, and that holds the bitmap. -/
theorem changesOnly_write {written : Files} (h : write fs p b = ⟨written, .ok ()⟩) :
    ∃ place, written.resolve p = .ok (place, .file (.bitmap b)) ∧
      Files.ChangesOnly (· = place) fs written := by
  obtain ⟨-, -, hwrite⟩ := write_eq_ok h
  obtain ⟨place, htarget, rfl⟩ := Files.write_eq_ok hwrite
  refine ⟨place, Files.resolve_put_of_target htarget _, ?_⟩
  have hmade : Files.ChangesOnly (· = place) fs (fs.makeParent p).files :=
    (Files.changesOnly_makeParent fs p).mono fun _ hfalse => hfalse.elim
  exact hmade.trans (Files.changesOnly_put_file (Files.target_ne_nil htarget) _)

/-- The header can describe a buffer of a view's size exactly if it can describe the view. -/
theorem problem?_eq_none_iff_of_fits {v : View} (hb : v.Fits b) :
    problem? b = none ↔ v.stride.toNat ≤ signedLimit ∧ v.height.toNat ≤ signedLimit ∧
      4 * (v.stride.toNat * v.height.toNat) ≤ unsignedLimit := by
  have hsize : b.pixels.size = b.stride.toNat * b.height.toNat := hb.sized
  rw [problem?_eq_none_iff, imageLength, hsize, hb.stride_eq, hb.height_eq, Nat.mul_comm _ 4]

end Reference

/-! ## Recording a capture -/

namespace Recording

variable {fs : Files} {p : Path} {capture : Capture} {v : View}

/-- A recording that was given up because of a format or a size. -/
def IsRefused (recording : Recording) : Prop :=
  ∃ problem failure, recording.problem = some problem ∧ problem.failure? = some failure ∧
    failure.isBufferFormat

/-- What a recording comes to, by the capture and then by the buffer. -/
theorem ofCapture_of_error {obstacle : Obstacle}
    (hnormalize : capture.normalize v.stride v.height = .error obstacle) :
    (ofCapture fs p capture v).value = ⟨fs, some (.normalizing obstacle)⟩ := by
  simp [ofCapture, Capture.normalizeTraced, hnormalize]

theorem ofCapture_of_outcome_error {b : PixelBuffer} {failure : Failure}
    (hnormalize : capture.normalize v.stride v.height = .ok b)
    (hwrite : (Reference.write fs p b).outcome = .error failure) :
    (ofCapture fs p capture v).value
      = ⟨(Reference.write fs p b).files, some (.writing failure)⟩ := by
  simp [ofCapture, Capture.normalizeTraced, Reference.writeTraced, hnormalize, hwrite]

/-- **What comes of recording a capture**: it is refused or broken off and nothing has been touched,
or something is the matter with the files, or the one file has been written. -/
theorem ofCapture_cases (fs : Files) (p : Path) (capture : Capture) (v : View) :
    ((∀ format, ¬ capture.Admitted v format) ∧ ¬ capture.Overlong v ∧
      ∃ problem failure, (ofCapture fs p capture v).value = ⟨fs, some problem⟩ ∧
        problem.failure? = some failure ∧ failure.isBufferFormat) ∨
    (capture.Overlong v ∧
      (ofCapture fs p capture v).value = ⟨fs, some (.normalizing .overrun)⟩) ∨
    ((∃ format, capture.Admitted v format) ∧ ¬ fs.Writable p ∧
      ∃ cause, (ofCapture fs p capture v).value.problem = some (.writing (.io cause))) ∨
    ((∃ format, capture.Admitted v format) ∧
      ∃ b written, v.Fits b ∧ Reference.write fs p b = ⟨written, .ok ()⟩ ∧
        (ofCapture fs p capture v).value = ⟨written, none⟩) := by
  rcases capture.normalize_cases v with
    ⟨format, b, hcomplete, hshort, hb, hfits⟩ | ⟨failure, hrefused, hb, hfailure⟩ | ⟨hlong, hb⟩
  · have hview := Reference.problem?_eq_none_iff_of_fits hfits
    rcases Reference.outcome_write fs p b with
      ⟨problem, hproblem, hwrite⟩ | ⟨hnone, hp, cause, hwrite⟩ | ⟨hnone, written, hwrite⟩
    · left
      refine ⟨?_, hshort, ?_⟩
      · intro other hadmitted
        have hnone := hview.mpr
          ⟨hadmitted.stride_le, hadmitted.height_le, hadmitted.length_le⟩
        rw [hproblem] at hnone
        cases hnone
      · refine ⟨.writing (.buffer problem), .buffer problem, ?_, rfl, rfl⟩
        rw [ofCapture_of_outcome_error hb (by rw [hwrite]), hwrite]
    · obtain ⟨hstride, hheight, hlength⟩ := hview.mp hnone
      right; right; left
      refine ⟨⟨format, hcomplete, hstride, hheight, hlength⟩, hp, cause, ?_⟩
      rw [ofCapture_of_outcome_error hb hwrite]
    · obtain ⟨hstride, hheight, hlength⟩ := hview.mp hnone
      right; right; right
      exact ⟨⟨format, hcomplete, hstride, hheight, hlength⟩, b, written, hfits, hwrite,
        ofCapture_eq hb hwrite⟩
  · left
    refine ⟨fun format hadmitted => hrefused format hadmitted.toComplete, ?_,
      .normalizing (.failure failure), failure, ofCapture_of_error hb, rfl, hfailure⟩
    rintro ⟨⟨format, hcomplete⟩, -⟩
    exact hrefused format hcomplete
  · exact Or.inr (Or.inl ⟨hlong, ofCapture_of_error hb⟩)

theorem not_isRefused_of_overrun {recording : Recording}
    (h : recording.problem = some (.normalizing .overrun)) : ¬ recording.IsRefused := by
  rintro ⟨problem, failure, hproblem, hfailure, -⟩
  rw [h] at hproblem
  cases hproblem
  cases hfailure

theorem not_isRefused_of_io {recording : Recording} {cause : Cause}
    (h : recording.problem = some (.writing (.io cause))) : ¬ recording.IsRefused := by
  rintro ⟨problem, failure, hproblem, hfailure, hformat⟩
  rw [h] at hproblem
  cases hproblem
  cases hfailure
  cases hformat

theorem not_isRefused_of_none {recording : Recording} (h : recording.problem = none) :
    ¬ recording.IsRefused := by
  rintro ⟨problem, failure, hproblem, -⟩
  rw [h] at hproblem
  cases hproblem

/-- **What is refused is what is not admitted in any format**, unless it is broken off before that. -/
theorem isRefused_iff :
    (ofCapture fs p capture v).value.IsRefused ↔
      (∀ format, ¬ capture.Admitted v format) ∧ ¬ capture.Overlong v := by
  rcases ofCapture_cases fs p capture v with
    ⟨hrefused, hshort, problem, failure, hvalue, hfailure⟩ | ⟨hlong, hvalue⟩ |
    ⟨⟨format, hadmitted⟩, -, cause, hproblem⟩ | ⟨⟨format, hadmitted⟩, b, written, -, -, hvalue⟩
  · rw [hvalue]
    exact ⟨fun _ => ⟨hrefused, hshort⟩, fun _ => ⟨problem, failure, rfl, hfailure⟩⟩
  · rw [hvalue]
    exact ⟨fun h => absurd h (not_isRefused_of_overrun rfl), fun h => absurd hlong h.2⟩
  · exact ⟨fun h => absurd h (not_isRefused_of_io hproblem),
      fun h => absurd hadmitted (h.1 format)⟩
  · rw [hvalue]
    exact ⟨fun h => absurd h (not_isRefused_of_none rfl),
      fun h => absurd hadmitted (h.1 format)⟩

/-- What is broken off is what is too long for its view. -/
theorem problem_eq_overrun_iff :
    (ofCapture fs p capture v).value.problem = some (.normalizing .overrun) ↔
      capture.Overlong v := by
  rcases ofCapture_cases fs p capture v with
    ⟨hrefused, hshort, problem, failure, hvalue, hfailure, -⟩ | ⟨hlong, hvalue⟩ |
    ⟨⟨format, hadmitted⟩, -, cause, hproblem⟩ | ⟨⟨format, hadmitted⟩, b, written, -, -, hvalue⟩
  · refine ⟨fun h => ?_, fun hlong => absurd hlong hshort⟩
    rw [hvalue] at h
    cases h
    cases hfailure
  · rw [hvalue]
    exact ⟨fun _ => hlong, fun _ => rfl⟩
  · rw [hproblem]
    exact ⟨nofun, fun hlong => absurd hadmitted (hlong.not_admitted format)⟩
  · rw [hvalue]
    exact ⟨nofun, fun hlong => absurd hadmitted (hlong.not_admitted format)⟩

/-- Either way the files are as they were. -/
theorem files_of_not_admitted (h : ∀ format, ¬ capture.Admitted v format) :
    (ofCapture fs p capture v).value.files = fs := by
  rcases ofCapture_cases fs p capture v with
    ⟨-, -, problem, failure, hvalue, -⟩ | ⟨-, hvalue⟩ | ⟨⟨format, hadmitted⟩, -⟩ |
    ⟨⟨format, hadmitted⟩, -⟩
  · rw [hvalue]
  · rw [hvalue]
  · exact absurd hadmitted (h format)
  · exact absurd hadmitted (h format)

theorem problem_of_admitted {format : PixelFormat} (h : capture.Admitted v format)
    (hp : fs.Writable p) : (ofCapture fs p capture v).value.problem = none := by
  rcases ofCapture_cases fs p capture v with
    ⟨hrefused, -⟩ | ⟨hlong, -⟩ | ⟨-, hstopped, -⟩ | ⟨-, b, written, -, -, hvalue⟩
  · exact absurd h (hrefused format)
  · exact absurd h (hlong.not_admitted format)
  · exact absurd hp hstopped
  · rw [hvalue]

/-- A recording that succeeds has written one file, as long as its view says. -/
theorem written_of_problem_eq_none (h : (ofCapture fs p capture v).value.problem = none) :
    ∃ place content,
      (ofCapture fs p capture v).value.files.resolve p = .ok (place, .file content) ∧
      content.bytes.length = 54 + 4 * (v.stride.toNat * v.height.toNat) ∧
      Files.ChangesOnly (· = place) fs (ofCapture fs p capture v).value.files := by
  rcases ofCapture_cases fs p capture v with
    ⟨-, -, problem, failure, hvalue, -⟩ | ⟨-, hvalue⟩ | ⟨-, -, cause, hproblem⟩ |
    ⟨-, b, written, hfits, hwrite, hvalue⟩
  · rw [hvalue] at h
    cases h
  · rw [hvalue] at h
    cases h
  · rw [hproblem] at h
    cases h
  · obtain ⟨place, hplace, hchanges⟩ := Reference.changesOnly_write hwrite
    have hsize : b.pixels.size = b.stride.toNat * b.height.toNat := hfits.sized
    rw [hvalue]
    refine ⟨place, .bitmap b, hplace, ?_, hchanges⟩
    show (Reference.encode b).length = _
    rw [Reference.length_encode, hsize, hfits.stride_eq, hfits.height_eq]
    rfl

/-- **A refused recording leaves everything as it was.**  A capture is refused for its format or a
size exactly if it is not admitted in any format, unless its view is too long for it, where the
recording is broken off.  In both cases the files are what they were, so that whatever is loaded from
them or compared with them comes out as before.  An admitted capture is recorded wherever something
can be written.  A recording that succeeds leaves a file where its path leads to, which is as long as
the header and the words of the view together, and no other file has been changed. -/
theorem ofCapture_untouched (fs : Files) (p : Path) (capture : Capture) (v : View) :
    let recording := (ofCapture fs p capture v).value
    let brokenOff := recording.problem = some (.normalizing .overrun)
    (recording.IsRefused ↔ (∀ format, ¬ capture.Admitted v format) ∧ ¬ capture.Overlong v) ∧
    (brokenOff ↔ capture.Overlong v) ∧
    (recording.IsRefused ∨ brokenOff → recording.files = fs ∧
      (∀ stride height : UInt32,
        Reference.load recording.files p stride height = Reference.load fs p stride height) ∧
      ∀ (verifier : Verifier) (audience : Audience) (test : String) (current : Capture)
        (view : View),
        verifier.compareScreenshot recording.files audience test current view p
          = verifier.compareScreenshot fs audience test current view p) ∧
    (∀ format, capture.Admitted v format → fs.Writable p → recording.problem = none) ∧
    (recording.problem = none →
      ∃ place content, recording.files.resolve p = .ok (place, .file content) ∧
        content.bytes.length = 54 + 4 * (v.stride.toNat * v.height.toNat) ∧
        Files.ChangesOnly (· = place) fs recording.files) := by
  intro recording brokenOff
  refine ⟨isRefused_iff, problem_eq_overrun_iff, ?_,
    fun format hadmitted hp => problem_of_admitted hadmitted hp, written_of_problem_eq_none⟩
  intro hstopped
  have hnone : ∀ format, ¬ capture.Admitted v format := by
    rcases hstopped with hrefused | hlong
    · exact (isRefused_iff.mp hrefused).1
    · exact (problem_eq_overrun_iff.mp hlong).not_admitted
  have hfiles : recording.files = fs := files_of_not_admitted hnone
  rw [hfiles]
  exact ⟨rfl, fun _ _ => rfl, fun _ _ _ _ _ => rfl⟩

/-- A view of no pixels whose stride no header can say leaves the reference of one pixel that is
there; a view of two rows of three words takes its place. -/
theorem ofCapture_untouched_tooWide :
    let fs : Files := ⟨[(["frame.bmp"], .file (.bitmap ⟨1, 1, #[0xFF336699]⟩))], []⟩
    let p : Path := ⟨"frame.bmp"⟩
    let refused := (ofCapture fs p upsideDown ⟨0x80000000, 0, 0⟩).value
    let recorded := (ofCapture fs p upsideDown ⟨3, 2, 2⟩).value
    refused.IsRefused ∧ refused.files = fs ∧
      Reference.load refused.files p 1 1 = .ok #[0xFF336699] ∧
      recorded.problem = none ∧
      ∃ place content, recorded.files.resolve p = .ok (place, .file content) ∧
        content.bytes.length = 78 ∧ Files.ChangesOnly (· = place) fs recorded.files := by
  intro fs p refused recorded
  obtain ⟨hrefused, -, hkept, -, -⟩ :=
    ofCapture_untouched fs p upsideDown ⟨0x80000000, 0, 0⟩
  obtain ⟨-, -, -, hadmitted, hwritten⟩ := ofCapture_untouched fs p upsideDown ⟨3, 2, 2⟩
  have hwide : refused.IsRefused :=
    hrefused.mpr ⟨fun _ h => absurd h.stride_le (by decide), fun h => absurd h.2 (by decide)⟩
  obtain ⟨hfiles, hload, -⟩ := hkept (Or.inl hwide)
  have hone : Reference.load fs p 1 1 = .ok #[0xFF336699] := by decide +kernel
  have hp : fs.Writable p := ⟨by decide +kernel, by decide +kernel⟩
  have hcomplete : upsideDown.Complete .rgb565 := by decide
  have hrecorded : recorded.problem = none :=
    hadmitted .rgb565 ⟨hcomplete, by decide, by decide, by decide⟩ hp
  exact ⟨hwide, hfiles, (hload 1 1).trans hone, hrecorded, hwritten hrecorded⟩

end Recording

end Golden
