import Golden.Proofs.Comparison.Report
import Golden.Proofs.Screenshot.Differences
import Golden.Proofs.Screenshot.Recorded

/-!
# Golden.Proofs.Screenshot.Blessed — comparing against a recorded capture

Record one capture as a reference, then compare another one with it under the same view.  The two
meet only as files: the first is brought into canonical form, written behind a header and read back
word by word; the second is brought into canonical form and scored against what was read.  Nothing
of this can fail and nothing of it shows in the result, which is the number of positions at which
the two canonical forms differ in colour (`Recording.compareScreenshot_ofCapture`).

What a view must satisfy for this is `View.Recordable`: the compared columns lie in the stride, and
a bitmap of the view's size can be described by its header.
-/

namespace Golden

/-- A view whose pictures can be recorded and compared. -/
structure View.Recordable (v : View) : Prop where
  width_le : v.width ≤ v.stride
  stride_le : v.stride.toNat ≤ 2 ^ 31 - 1
  height_le : v.height.toNat ≤ 2 ^ 31 - 1
  length_le : 54 + 4 * (v.stride.toNat * v.height.toNat) ≤ 2 ^ 32 - 1

namespace View.Recordable

variable {v : View} {actual expected b : PixelBuffer}

/-- A buffer of the view's size can be recorded. -/
theorem of_fits (h : v.Recordable) (hb : v.Fits b) : Reference.Recordable b := by
  have hlength := h.length_le
  refine ⟨hb.sized, ?_, ?_, ?_⟩
  · rw [hb.stride_eq]
    exact h.stride_le
  · rw [hb.height_eq]
    exact h.height_le
  · rw [hb.stride_eq, hb.height_eq]
    exact hlength

/-- Such a buffer takes far less than a vector can hold. -/
theorem room (h : v.Recordable) : 4 * (v.stride.toNat * v.height.toNat) ≤ vectorLimit := by
  have hlength := h.length_le
  unfold vectorLimit
  omega

theorem check_eq_ok (h : v.Recordable) (hb : v.Fits b) : v.check b.pixels = .ok () :=
  View.check_eq_ok_iff.mpr (hb.covers h.width_le)

/-- The score of two buffers of the view's size. -/
theorem score_eq (h : v.Recordable) (ha : v.Fits actual) (he : v.Fits expected) :
    Score.ofPixels actual.pixels expected.pixels v
      = .ok ⟨(v.differences actual expected).card, v.width.toNat * v.height.toNat⟩ := by
  rw [Score.ofPixels_of_covers (ha.covers h.width_le) (he.covers h.width_le),
    Score.count_eq ha he h.width_le]

end View.Recordable

/-! ## The report of a comparison -/

namespace Comparison

/-- Once the reference is loaded and both buffers are scored, the report is that of the score. -/
theorem report_ofScreenshot {c : Config} {fs : Files} {test : String} {capture : Capture}
    {v : View} {p : Path} {b : PixelBuffer} {words : Array UInt32} {score : Score}
    (hnormalize : capture.normalize v.stride v.height = .ok b)
    (hcheck : v.check b.pixels = .ok ())
    (hload : Reference.load fs p v.stride v.height = .ok words)
    (hscore : Score.ofPixels b.pixels words v = .ok score) :
    (ofScreenshot c fs test capture v p).map (·.report)
      = ratioReport c test (.ok score.ratio) := by
  rw [report_ofScreenshot_eq, hnormalize]
  exact congrArg (ratioReport c test) (Reference.compare_of_score hcheck hload hscore)

end Comparison

theorem Verifier.report_compareScreenshot (verifier : Verifier) (fs : Files) (audience : Audience)
    (test : String) (capture : Capture) (v : View) (p : Path) :
    (verifier.compareScreenshot fs audience test capture v p).value.report
      = (Comparison.ofScreenshot verifier.config fs test capture v p).map (·.report) := by
  rw [compareScreenshot_eq_tellIfAny, report_tellIfAny]

/-! ## Recording and comparing -/

namespace Recording

/-- Recording a capture is writing its canonical form. -/
theorem ofCapture_eq {fs written : Files} {p : Path} {capture : Capture} {v : View}
    {b : PixelBuffer} (hnormalize : capture.normalize v.stride v.height = .ok b)
    (hwrite : Reference.write fs p b = ⟨written, .ok ()⟩) :
    (ofCapture fs p capture v).value = ⟨written, none⟩ := by
  simp [ofCapture, Capture.normalizeTraced, Reference.writeTraced, hnormalize, hwrite]

/-- **What one capture recorded, another is compared with.**  For complete captures of any formats,
orders and sizes, a recordable view and a writable path: recording the first succeeds; the second is
then compared with it without an error; and the score counts the positions at which the canonical
forms of the two differ in colour.  A capture never differs from its own record. -/
theorem compareScreenshot_ofCapture {fs : Files} {p : Path} {first second : Capture}
    {firstFormat secondFormat : PixelFormat} {v : View} (hfirst : first.Complete firstFormat)
    (hsecond : second.Complete secondFormat) (hv : v.Recordable) (hp : fs.Writable p) :
    ∃ blessed current,
      first.normalize v.stride v.height = .ok blessed ∧
      second.normalize v.stride v.height = .ok current ∧
      let recording := (ofCapture fs p first v).value
      let score : Score := ⟨(v.differences current blessed).card, v.width.toNat * v.height.toNat⟩
      recording.problem = none ∧
      Reference.write fs p blessed = ⟨recording.files, .ok ()⟩ ∧
      (∃ words, Reference.load recording.files p v.stride v.height = .ok words ∧
        Score.ofPixels current.pixels words v = .ok score) ∧
      (∀ (verifier : Verifier) (audience : Audience) (test : String),
        ∃ report,
          (verifier.compareScreenshot recording.files audience test second v p).value.report
              = some report ∧
            report.error = none ∧ report.errorRatio = some score.ratio) ∧
      (second = first → score.mismatched = 0) := by
  obtain ⟨blessed, hblessed, hstride, hheight, hsized⟩ :=
    Capture.normalize_of_complete hfirst hv.room
  obtain ⟨current, hcurrent, hstride', hheight', hsized'⟩ :=
    Capture.normalize_of_complete hsecond hv.room
  have hfits : v.Fits blessed := ⟨hstride, hheight, hsized⟩
  have hfits' : v.Fits current := ⟨hstride', hheight', hsized'⟩
  obtain ⟨written, hwrite, hload⟩ := Reference.load_of_write (hv.of_fits hfits) hp
  -- what is read back are the words of the first form, so the two forms themselves are scored
  rw [hstride, hheight] at hload
  have hscore := hv.score_eq hfits' hfits
  refine ⟨blessed, current, hblessed, hcurrent, ?_⟩
  rw [ofCapture_eq hblessed hwrite]
  refine ⟨rfl, hwrite, ⟨blessed.pixels, hload, hscore⟩, ?_, ?_⟩
  · intro verifier audience test
    dsimp only
    rw [Verifier.report_compareScreenshot,
      Comparison.report_ofScreenshot hcurrent (hv.check_eq_ok hfits') hload hscore]
    exact ⟨_, rfl, rfl, rfl⟩
  · rintro rfl
    have hsame : current = blessed := Except.ok.inj (hcurrent.symm.trans hblessed)
    show (v.differences current blessed).card = 0
    rw [hsame, View.differences_self, Finset.card_empty]

/-- Two rows of two visible pixels in a stride of three, the lower row first. -/
def upsideDown : Capture :=
  ⟨3, 2, 2, PixelFormat.rgb565.tag, .bottomUp,
    #[0x1F, 0x00, 0xFF, 0xFF, 0xAA, 0xAA, 0xFF, 0xFF, 0x00, 0xF8, 0xAA, 0xAA]⟩

/-- The same picture from the top and without alpha, but for the pixel at the lower right. -/
def upright : Capture :=
  ⟨2, 2, 2, PixelFormat.bgra8888.tag, .topDown,
    #[0xFF, 0xFF, 0xFF, 0x00, 0xFF, 0x00, 0x00, 0x00,
      0x00, 0x00, 0xFF, 0x00, 0xFF, 0xFF, 0x00, 0x00]⟩

/-- One pixel of four makes the difference, on a file system that starts out empty. -/
theorem compareScreenshot_upright_upsideDown :
    let v : View := ⟨3, 2, 2⟩
    let p : Path := ⟨"shots/frame.bmp"⟩
    let recording := (ofCapture ⟨[], []⟩ p upsideDown v).value
    upsideDown.Complete .rgb565 ∧ upright.Complete .bgra8888 ∧ v.Recordable ∧
      Files.Writable ⟨[], []⟩ p ∧ recording.problem = none ∧
      ∀ (verifier : Verifier) (audience : Audience) (test : String),
        ∃ report,
          (verifier.compareScreenshot recording.files audience test upright v p).value.report
              = some report ∧
            report.error = none ∧ report.errorRatio = some (Score.ratio ⟨1, 4⟩) := by
  have hfirst : upsideDown.Complete .rgb565 := by decide
  have hsecond : upright.Complete .bgra8888 := by decide
  have hv : View.Recordable ⟨3, 2, 2⟩ := ⟨by decide, by decide, by decide, by decide⟩
  have hp : Files.Writable ⟨[], []⟩ ⟨"shots/frame.bmp"⟩ := ⟨by decide +kernel, by decide +kernel⟩
  obtain ⟨blessed, current, hblessed, hcurrent, hproblem, -, -, hreport, -⟩ :=
    compareScreenshot_ofCapture hfirst hsecond hv hp
  have hblessed' : blessed
      = ⟨3, 2, #[0xFFFFFFFF, 0xFF0000FF, 0, 0xFFFF0000, 0xFFFFFFFF, 0]⟩ :=
    Except.ok.inj (hblessed.symm.trans rfl)
  have hcurrent' : current
      = ⟨3, 2, #[0x00FFFFFF, 0x000000FF, 0, 0x00FF0000, 0x0000FFFF, 0]⟩ :=
    Except.ok.inj (hcurrent.symm.trans rfl)
  have hcard : (View.differences ⟨3, 2, 2⟩ current blessed).card = 1 := by
    rw [hblessed', hcurrent']
    decide
  rw [hcard] at hreport
  exact ⟨hfirst, hsecond, hv, hp, hproblem, hreport⟩

end Recording

end Golden
