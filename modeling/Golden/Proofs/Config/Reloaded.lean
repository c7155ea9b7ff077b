import Golden.Config
import Golden.Proofs.Files.Written
import Golden.Proofs.Text.Encoded
import Golden.Proofs.Toml.Printed

/-!
# Golden.Proofs.Config.Reloaded — settings loaded from where they were saved

Saving settings leads them through four forms, and loading goes the same way back.  Settings are a
table (`ofEntries?_entries`), the table is what some statements make (`tableOfStatements_sections`),
the statements are lines of text (`parse_toText`), and the text is the content of a file.  The name
of the directory for pictures is the one part of this that can be any text at all, and it is read
back whatever it holds; the ratio has to be one that its digits give back (`Toml.ReadsBack`).

Saving does not ask whether settings are any good, loading does.  **What has been saved is therefore
loaded again as it was, or refused for its ratio** (`load_save`), and nothing else can happen where
the file could be written.
-/

namespace Golden

namespace Config

open Toml (Entries Value)

/-! ## The text of settings -/

/-- No setting and no section has a name that needs quotes. -/
theorem bare_names : ∀ name ∈ ["verbose", "annotations", "teamcity", "github_actions", "screenshot",
    "max_error_ratio", "diff_dir"], Toml.Bare name := by
  intro name hname
  simp only [List.mem_cons, List.not_mem_nil, or_false] at hname
  rcases hname with rfl | rfl | rfl | rfl | rfl | rfl | rfl <;> exact ⟨by decide, rfl⟩

theorem readsBack_sections {c : Config} (h : Toml.ReadsBack c.maxErrorRatio) :
    ∀ s ∈ c.sections, s.ReadsBack := by
  intro s hs
  simp only [sections, List.mem_cons, List.not_mem_nil, or_false] at hs
  rcases hs with rfl | rfl | rfl
  · refine ⟨by simp, ?_⟩
    simp only [List.forall_mem_cons]
    exact ⟨⟨bare_names _ (by simp), Toml.readsBack_boolean _⟩, by simp⟩
  · refine ⟨?_, ?_⟩
    · rintro _ ⟨⟩
      exact bare_names _ (by simp)
    · simp only [List.forall_mem_cons]
      exact ⟨⟨bare_names _ (by simp), Toml.readsBack_boolean _⟩,
        ⟨bare_names _ (by simp), Toml.readsBack_boolean _⟩, by simp⟩
  · refine ⟨?_, ?_⟩
    · rintro _ ⟨⟩
      exact bare_names _ (by simp)
    · rw [List.forall_mem_cons]
      refine ⟨⟨bare_names _ (by simp), h.float⟩, ?_⟩
      intro entry hentry
      obtain ⟨dir, -, rfl⟩ := List.mem_map.mp hentry
      exact ⟨bare_names _ (by simp), Toml.readsBack_text dir.text⟩

/-- The table that settings are written as. -/
def entries (c : Config) : Entries :=
  [("verbose", .scalar (.boolean c.verbose)),
    ("annotations", .table .heading
      [("teamcity", .scalar (.boolean c.teamCity)), ("github_actions", .scalar (.boolean c.gitHub))]),
    ("screenshot", .table .heading
      (("max_error_ratio", .scalar (.float c.maxErrorRatio))
        :: c.diffDirectory.toList.map fun dir => ("diff_dir", .scalar (.text dir.text))))]

theorem tableOfStatements_sections (c : Config) :
    Toml.tableOfStatements (c.sections.flatMap Toml.Section.statements) = some c.entries := by
  obtain ⟨verbose, teamCity, gitHub, ratio, diffDirectory⟩ := c
  cases diffDirectory with
  | none => rfl
  | some dir => rfl

theorem ofEntries?_entries (c : Config) : ofEntries? c.entries = some c := by
  obtain ⟨verbose, teamCity, gitHub, ratio, diffDirectory⟩ := c
  cases diffDirectory with
  | none => rfl
  | some dir => rfl

/-- The text of settings begins with the name of the first of them, not with a mark of its own. -/
theorem writeSections_eq_cons (c : Config) :
    ∃ behind, Toml.writeSections c.sections = 'v' :: behind :=
  ⟨_, rfl⟩

theorem parse_toText {c : Config} (h : Toml.ReadsBack c.maxErrorRatio) :
    Toml.parse c.toText = some c.entries := by
  have hreads := Toml.reads_writeSections c.sections (readsBack_sections h)
  have hread := hreads ((Toml.writeSections c.sections).length + 1) (Nat.lt_succ_self _)
  obtain ⟨behind, hwrite⟩ := writeSections_eq_cons c
  have hlist : c.toText.toList = 'v' :: behind := by
    rw [toText, String.toList_ofList, hwrite]
  have hmark : ¬ 'v' = Toml.byteOrderMark := by decide
  rw [hwrite] at hread
  rw [Toml.parse, hlist]
  dsimp only
  rw [if_neg hmark, hread]
  exact tableOfStatements_sections c

/-- **The text of settings gives the settings back.** -/
theorem ofText?_toText_eq {c : Config} (h : Toml.ReadsBack c.maxErrorRatio) :
    ofText? c.toText = some c := by
  rw [ofText?, parse_toText h, Option.bind_some, ofEntries?_entries]

/-! ## Files of settings -/

/-- What is loaded from a file with a text in it. -/
theorem load_of_resolve {fs : Files} {p : Path} {place : Place} {text : String} {c : Config}
    (h : fs.resolve p = .ok (place, .file (.raw (bytesOfText text)))) (hc : ofText? text = some c) :
    load fs p = c.check.map fun _ => c := by
  have hexists : fs.exists? p = true := by
    rw [Files.exists?, h]
  have hread : fs.read p = .ok (bytesOfText text) := by
    rw [Files.read, h]
    rfl
  have htext : fs.readText p textOfBytes? = .ok text := by
    simp only [Files.readText, hread, bind, Except.bind, textOfBytes?_bytesOfText]
    rfl
  have hloaded : (fs.readText p textOfBytes?).mapError Failure.io = .ok text := by
    rw [htext]
    rfl
  simp only [load, hexists, hloaded, hc, bind, Except.bind]
  cases c.check with
  | error failure => rfl
  | ok checked => rfl

/-- Where a file can be written, settings can be saved, and their text is in it. -/
theorem save_of_writable {fs : Files} {p : Path} (hp : fs.Writable p) (c : Config) :
    (save fs p c).outcome = .ok () ∧ ∃ place,
      (save fs p c).files.resolve p = .ok (place, .file (.raw (bytesOfText c.toText))) := by
  obtain ⟨written, hwritten⟩ := hp.exists_write (.raw (bytesOfText c.toText))
  have hsave : save fs p c = ⟨written, .ok ()⟩ := by
    rw [save]
    rw [hp.made]
    dsimp only
    rw [hwritten]
  rw [hsave]
  exact ⟨rfl, Files.resolve_of_write hwritten⟩

/-- **Saved settings are loaded as they were, or refused.**  Wherever a file can be written, settings
can be saved, whatever they are.  If their ratio is one from zero to one, loading them from there
gives the same settings again, with every character of the directory for pictures; if it is not,
they are refused for it. -/
theorem load_save {fs : Files} {p : Path} (hp : fs.Writable p) {c : Config}
    (hratio : Toml.ReadsBack c.maxErrorRatio) :
    (save fs p c).outcome = .ok () ∧
    (c.check = .ok () → load (save fs p c).files p = .ok c) ∧
    (c.check ≠ .ok () →
      load (save fs p c).files p = .error (.ratioOutOfRange c.maxErrorRatio)) := by
  obtain ⟨hsaved, place, hplace⟩ := save_of_writable hp c
  have hload := load_of_resolve hplace (ofText?_toText_eq hratio)
  refine ⟨hsaved, ?_, ?_⟩
  · intro hcheck
    rw [hload, hcheck]
    rfl
  · intro hcheck
    have hrefused : c.check = .error (.ratioOutOfRange c.maxErrorRatio) := by
      unfold check at hcheck ⊢
      split at hcheck
      · exact absurd rfl hcheck
      · rename_i hrange
        exact if_neg hrange
    rw [hload, hrefused]
    rfl

/-- A quarter and no number at all, and a directory whose name has quotes of both kinds next to the
closing ones, line ends and a character that must be escaped. -/
theorem load_save_quarter :
    let fs : Files := ⟨[], []⟩
    let p : Path := ⟨"settings/outcheck.toml"⟩
    let c : Config := ⟨true, false, true, 0.25, some ⟨"\n\"\"\"\x27\x27\x27\\\t\r\x01ß\n\x27\x27\"\""⟩⟩
    let worse : Config := { c with maxErrorRatio := Decimal.notANumber }
    fs.Writable p ∧ Toml.ReadsBack c.maxErrorRatio ∧ Toml.ReadsBack worse.maxErrorRatio ∧
      load (save fs p c).files p = .ok c ∧
      load (save fs p worse).files p = .error (.ratioOutOfRange Decimal.notANumber) := by
  intro fs p c worse
  have hp : fs.Writable p := ⟨by decide +kernel, by decide +kernel⟩
  have hquarter : Toml.ReadsBack c.maxErrorRatio := by decide +kernel
  have hnone : Toml.ReadsBack worse.maxErrorRatio := by decide +kernel
  have hgood : c.check = .ok () := if_pos (by decide +kernel)
  have hbad : worse.check ≠ .ok () := by
    rw [check, if_neg (by decide +kernel)]
    intro heq
    cases heq
  exact ⟨hp, hquarter, hnone, (load_save hp hquarter).2.1 hgood, (load_save hp hnone).2.2 hbad⟩

end Config

end Golden
