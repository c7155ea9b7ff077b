import Golden.Proofs.Comparison.Announced
import Golden.Proofs.Files.Changed

/-!
# Golden.Proofs.Comparison.Confined — the files that comparisons change

A comparison reads, and it has one occasion to write: a screenshot that was scored and failed leaves
a picture of the differences, if the configuration names a directory for pictures.  Every other exit
of every kind of comparison leaves the files as they were (`Comparison.Confined`).

The picture has a place of its own beneath the directory, found by the plain names of the test
(`Files.IsPicturePlace`).  So one call changes at most one file, and a series of calls, each of which
finds the files that the one before it left, changes at most the pictures of its tests
(`Verifier.session_confined`).  New directories on the way to a picture are all that can happen
besides.  There are no links among these files, so a place is reached by its names alone.
-/

namespace Golden

namespace Comparison

/-- What a comparison of a test may do to the files. -/
structure Confined (c : Config) (fs : Files) (test : String) (x : Comparison) : Prop where
  still : ¬ (x.report.kind = .screenshot ∧ x.report.passed = false ∧ x.report.error = none ∧
    c.diffDirectory.isSome = true) → x.files = fs
  changes : fs.ChangesOnly
    (fun place => ∃ directory, c.diffDirectory = some directory ∧
      x.files.IsPicturePlace directory test place) x.files

variable {c : Config} {fs : Files} {test : String} {x : Comparison}

/-- A comparison that leaves the files as they were. -/
theorem confined_of_files_eq (h : x.files = fs) : x.Confined c fs test := by
  refine ⟨fun _ => h, ?_⟩
  rw [h]
  exact .refl _ fs

theorem Confined.after (h : x.Confined c fs test) (notices : List Notice) :
    (after notices x).Confined c fs test :=
  ⟨h.still, h.changes⟩

variable (c fs test) (pixels reference : Array UInt32) (v : View) (p : Path)

theorem confined_screenshotFailed (failure : Failure) :
    (screenshotFailed fs test failure).Confined c fs test :=
  confined_of_files_eq rfl

theorem confined_ofScore (score : Score) :
    (ofScore c fs test pixels reference v score).Confined c fs test := by
  by_cases hpassed : (Report.ofScore c test score).passed = true
  · apply confined_of_files_eq
    simp only [ofScore, if_pos hpassed]
  · cases hdirectory : c.diffDirectory with
    | none =>
        apply confined_of_files_eq
        simp only [ofScore, if_neg hpassed, leavePicture, hdirectory]
        rfl
    | some directory =>
        have hfiles : (ofScore c fs test pixels reference v score).files
            = (writeDiffPicture fs (diffPicturePath directory test) pixels reference v).files := by
          simp only [ofScore, if_neg hpassed, leavePicture, hdirectory]
        refine ⟨?_, ?_⟩
        · intro hstill
          rw [report_ofScore, hdirectory] at hstill
          exact absurd ⟨rfl, Bool.eq_false_iff.mpr hpassed, rfl, rfl⟩ hstill
        · rw [hfiles]
          apply (Files.changesOnly_writeDiffPicture fs directory test pixels reference v).mono
          intro place hplace
          exact ⟨directory, hdirectory, hplace⟩

theorem confined_ofPixels : ∀ x ∈ ofPixels c fs test pixels v p, x.Confined c fs test :=
  forall_ofPixels (fun notices _ h => h.after notices) (confined_screenshotFailed c fs test)
    (fun words score => confined_ofScore c fs test pixels words v score) p

theorem confined_ofScreenshot (capture : Capture) :
    ∀ x ∈ ofScreenshot c fs test capture v p, x.Confined c fs test :=
  forall_ofScreenshot (fun notices _ h => h.after notices) (confined_screenshotFailed c fs test)
    (fun pixels words score => confined_ofScore c fs test pixels words v score) capture p

/-- Comparing output never changes a file. -/
theorem confined_ofOutput (verbose : Bool) (expectation : Path) (output : String) :
    (ofOutput verbose fs test expectation output).Confined c fs test := by
  apply confined_of_files_eq
  unfold ofOutput ofOpened
  split
  · rfl
  · rfl

theorem confined_comparison (call : Call) :
    ∀ x ∈ call.comparison c fs, x.Confined c fs call.test := by
  cases call with
  | output test expectation output =>
      rintro _ ⟨⟩
      exact confined_ofOutput c fs test c.verbose expectation output
  | screenshot test capture view reference =>
      exact confined_ofScreenshot c fs test view reference capture
  | pixels test pixels view reference => exact confined_ofPixels c fs test pixels view reference

end Comparison

/-! ## Series of calls -/

namespace Exchange

/-- A place at which a call may have left its picture. -/
def PicturePlace (c : Config) (x : Exchange) (place : Place) : Prop :=
  ∃ directory, c.diffDirectory = some directory ∧
    x.outcome.files.IsPicturePlace directory x.call.test place

/-- What a call may do to the files that it found. -/
structure Confined (c : Config) (before : Files) (x : Exchange) : Prop where
  still : ¬ (x.call.kind = .screenshot ∧
    (∃ r, x.outcome.report = some r ∧ r.passed = false ∧ r.error = none) ∧
    c.diffDirectory.isSome = true) → x.outcome.files = before
  changes : before.ChangesOnly (x.PicturePlace c) x.outcome.files

/-- The exchanges of a series, each behind the files that it found. -/
def found : Files → List Exchange → List (Files × Exchange)
  | _, [] => []
  | fs, x :: rest => (fs, x) :: found x.outcome.files rest

end Exchange

namespace Verifier

variable (v : Verifier)

/-- The files and the audience that a series of calls leaves. -/
def leave : Files → Audience → List Call → Files × Audience
  | fs, audience, [] => (fs, audience)
  | fs, audience, call :: rest =>
    let outcome := v.answer fs audience call
    leave outcome.files outcome.audience rest

/-- **One call changes at most the picture of its test**, for telling an audience does nothing to
the files, and a call that is broken off leaves them as they were. -/
theorem confined_answer (fs : Files) (audience : Audience) (call : Call) :
    Exchange.Confined v.config fs ⟨call, audience, v.answer fs audience call⟩ := by
  rw [answer_eq]
  cases hcomparison : call.comparison v.config fs with
  | none => exact ⟨fun _ => rfl, .refl _ fs⟩
  | some x =>
      have h := Comparison.confined_comparison v.config fs call x hcomparison
      have hkind := (call.announces_comparison v.config fs x hcomparison).kind_eq
      refine ⟨?_, h.changes⟩
      intro hstill
      apply h.still
      rintro ⟨hscreenshot, hfailed, herror, hdirectory⟩
      exact hstill ⟨hkind.symm.trans hscreenshot, ⟨x.report, rfl, hfailed, herror⟩, hdirectory⟩

theorem confined_session (fs : Files) (audience : Audience) (calls : List Call) :
    ∀ found ∈ Exchange.found fs (v.session fs audience calls),
      found.2.Confined v.config found.1 := by
  induction calls generalizing fs audience with
  | nil =>
      intro found hfound
      cases hfound
  | cons call rest ih =>
      intro found hfound
      rcases List.mem_cons.mp hfound with rfl | hlater
      · exact v.confined_answer fs audience call
      · exact ih _ _ found hlater

/-- A series of calls changes at most the pictures of its tests. -/
theorem changesOnly_leave (fs : Files) (audience : Audience) (calls : List Call) :
    fs.ChangesOnly
      (fun place => ∃ x ∈ v.session fs audience calls, x.PicturePlace v.config place)
      (v.leave fs audience calls).1 := by
  induction calls generalizing fs audience with
  | nil => exact .refl _ fs
  | cons call rest ih =>
      have hfirst := (v.confined_answer fs audience call).changes
      have hrest := ih (v.answer fs audience call).files (v.answer fs audience call).audience
      apply (hfirst.mono _).trans (hrest.mono _)
      · intro place hplace
        exact ⟨_, List.mem_cons_self, hplace⟩
      · rintro place ⟨x, hx, hplace⟩
        exact ⟨x, List.mem_cons_of_mem _ hx, hplace⟩

/-- **Comparisons write pictures of differences and nothing else.**  In a series of calls, whatever
the tests are called, a call leaves the files that it found as they were, unless it is about a
screenshot that was scored and failed and there is a directory for pictures.  Then it changes one
file at most, and makes directories at most: the file is the picture of the test, which lies beneath
the directory by plain names, the last of which ends in `-diff.png`.  So all that a whole series
changes is such pictures.  Two tests that have a plain name share a picture exactly if they have the
same plain names. -/
theorem session_confined (fs : Files) (audience : Audience) (calls : List Call) :
    (∀ found ∈ Exchange.found fs (v.session fs audience calls),
      found.2.Confined v.config found.1) ∧
    fs.ChangesOnly
      (fun place => ∃ x ∈ v.session fs audience calls, x.PicturePlace v.config place)
      (v.leave fs audience calls).1 ∧
    (∀ directory test,
      (diffPicturePath directory test).components
        = directory.components ++ (diffPictureNames test).map .plain ∧
      (∀ name ∈ diffPictureNames test, Path.Plain name) ∧
      ∃ stem, (diffPictureNames test).getLast? = some (stem ++ "-diff.png")) ∧
    ∀ directory test other,
      (Path.mk test).plainNames ≠ [] → (Path.mk other).plainNames ≠ [] →
      ((diffPicturePath directory test).components = (diffPicturePath directory other).components
        ↔ (Path.mk test).plainNames = (Path.mk other).plainNames) ∧
      (diffPicturePath directory test = diffPicturePath directory other
        ↔ (Path.mk test).plainNames = (Path.mk other).plainNames) := by
  refine ⟨v.confined_session fs audience calls, v.changesOnly_leave fs audience calls, ?_, ?_⟩
  · intro directory test
    have hbeneath := beneath_diffPicturePath directory test
    refine ⟨hbeneath.components_eq, hbeneath.plain, ?_⟩
    exact ⟨(Path.mk test).plainNames.getLast?.getD "screenshot", List.getLast?_concat⟩
  · intro directory test other htest hother
    exact diffPicturePath_eq_iff directory htest hother

/-- A reference of one black pixel, and two calls for a test whose pixel is red, one with a capture
and one with its pixels.  The two spell the name of the test differently and leave the same picture,
which neither of the spellings leads out of its directory. -/
theorem session_confined_spellings :
    let fs : Files := ⟨[(["ref.bmp"], .file (.raw (List.replicate 58 0)))], []⟩
    let v : Verifier := ⟨⟨false, false, false, 0, some ⟨"diffs"⟩⟩, []⟩
    let capture : Capture := ⟨1, 1, 1, PixelFormat.rgb565.tag, .topDown, #[0x00, 0xF8]⟩
    let first : Call := .screenshot "/gpu//./clear" capture ⟨1, 1, 1⟩ ⟨"ref.bmp"⟩
    let second : Call := .pixels "../gpu/clear/" #[0xFF0000FF] ⟨1, 1, 1⟩ ⟨"ref.bmp"⟩
    let left := (v.leave fs .attentive [first, second]).1
    (Path.mk "/gpu//./clear").plainNames = ["gpu", "clear"] ∧
    (Path.mk "../gpu/clear/").plainNames = ["gpu", "clear"] ∧
    diffPicturePath ⟨"diffs"⟩ "/gpu//./clear" = diffPicturePath ⟨"diffs"⟩ "../gpu/clear/" ∧
    (diffPicturePath ⟨"diffs"⟩ "../gpu/clear/").components
      = [.plain "diffs", .plain "gpu", .plain "clear-diff.png"] ∧
    (v.session fs .attentive [first, second]).map
        (fun x => x.outcome.report.map fun r => (r.passed, r.error))
      = [some (false, none), some (false, none)] ∧
    (∃ content, left.find? ["diffs", "gpu", "clear-diff.png"] = some (.file content)) ∧
    fs.ChangesOnly (· = ["diffs", "gpu", "clear-diff.png"]) left := by
  intro fs v capture first second left
  have hfirst : (Path.mk "/gpu//./clear").plainNames = ["gpu", "clear"] := by decide +kernel
  have hsecond : (Path.mk "../gpu/clear/").plainNames = ["gpu", "clear"] := by decide +kernel
  obtain ⟨-, hchanges, hbeneath, hshared⟩ :=
    session_confined v fs .attentive [first, second]
  refine ⟨hfirst, hsecond, ?_, ?_, ?_, ?_, ?_⟩
  · refine (hshared ⟨"diffs"⟩ _ _ ?_ ?_).2.mpr (hfirst.trans hsecond.symm)
    · rw [hfirst]
      exact List.cons_ne_nil _ _
    · rw [hsecond]
      exact List.cons_ne_nil _ _
  · rw [(hbeneath ⟨"diffs"⟩ "../gpu/clear/").1]
    decide +kernel
  · decide +kernel
  · exact ⟨.picture ⟨1, 1, #[⟨255, 0, 0, 255⟩]⟩, by decide +kernel⟩
  · have hplaces : (v.session fs .attentive [first, second]).map (fun x =>
          (x.outcome.files.walk (x.outcome.files.start ⟨"diffs"⟩) (Path.mk "diffs").names,
            diffPictureNames x.call.test))
        = List.replicate 2 (.ok ["diffs"], ["gpu", "clear-diff.png"]) := by decide +kernel
    apply hchanges.mono
    rintro place ⟨x, hx, directory, hdirectory, -, home, hhome, rfl⟩
    cases hdirectory
    have hplace := List.eq_of_mem_replicate (hplaces ▸ List.mem_map_of_mem hx)
    obtain ⟨hwalk, hnames⟩ := Prod.mk.inj hplace
    rw [hnames]
    cases hhome.symm.trans hwalk
    rfl

end Verifier

end Golden
