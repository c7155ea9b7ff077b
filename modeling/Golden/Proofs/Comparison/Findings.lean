import Golden.Proofs.Comparison.Printed
import Golden.Proofs.Line.Joined

/-!
# Golden.Proofs.Comparison.Findings — printed diagnostics are read back

Diagnostics are printed one a line and nothing in them is escaped, so all depends on what the lines
of a comparison can hold.  An alignment records lines that its readers had left
(`Alignment.line_mem_remaining`), and these are bare, whatever the sources brought
(`Alignment.bare_of_mem_diagnostics`).

So the newlines of the printed text are those behind the diagnostics, and cutting it there gives the
diagnostics back (`Diagnostic.readAll?_printAll`), be they blank, full of carriage returns or like
printed diagnostics themselves.  **Whatever the expectation and the output are, what a comparison
prints stands for exactly what it found** (`Verifier.compareOutput_reads_back`).
-/

namespace Golden

/-! ## Lines as they are recorded -/

theorem Edit.line_mem_recorded {edit : Edit} {d : Diagnostic} (h : d ∈ edit.diagnostics) :
    d.line ∈ edit.recordedExpected ∨ d.line ∈ edit.recordedActual := by
  cases edit with
  | keep line => cases h
  | add line =>
      obtain rfl := List.mem_singleton.mp h
      exact Or.inr List.mem_cons_self
  | remove line =>
      obtain rfl := List.mem_singleton.mp h
      exact Or.inl List.mem_cons_self
  | substitute observed expected =>
      rcases List.mem_cons.mp h with rfl | h
      · exact Or.inr List.mem_cons_self
      · obtain rfl := List.mem_singleton.mp h
        exact Or.inl List.mem_cons_self

namespace Alignment

/-- **What an alignment records are lines of one of the two sides.** -/
theorem line_mem_remaining {expected actual : Reader} {d : Diagnostic}
    (h : d ∈ (run expected actual).value.diagnostics) :
    d.line ∈ expected.remaining ∨ d.line ∈ actual.remaining := by
  obtain ⟨hexpected, hactual⟩ := (accounts_ofReaders expected actual).recorded_sublist
  rw [value_run] at h
  obtain ⟨edit, hedit, hd⟩ := List.mem_flatMap.mp h
  rcases Edit.line_mem_recorded hd with hline | hline
  · exact Or.inl (hexpected.subset (List.mem_flatMap.mpr ⟨edit, hedit, hline⟩))
  · exact Or.inr (hactual.subset (List.mem_flatMap.mpr ⟨edit, hedit, hline⟩))

/-- Fresh readers have bare lines left, so that what is recorded of them is bare. -/
theorem bare_of_mem_diagnostics (expected actual : Source) {d : Diagnostic}
    (h : d ∈ (run (.ofSource expected) (.ofSource actual)).value.diagnostics) : Bare d.line := by
  rcases line_mem_remaining h with hline | hline
  · exact Source.bare_of_mem_lines expected _ hline
  · exact Source.bare_of_mem_lines actual _ hline

end Alignment

/-! ## Printed diagnostics -/

namespace Diagnostic

/-- The diagnostics that the lines of a text stand for, if every line ends in a newline and is a
printed diagnostic. -/
def readAll? (text : String) : Option (List Diagnostic) :=
  let pieces := text.toList.splitOn '\n'
  if pieces.getLast? = some [] then pieces.dropLast.mapM fun line => read? (String.ofList line)
  else none

theorem newline_notMem_text {d : Diagnostic} (h : '\n' ∉ d.line.toList) : '\n' ∉ d.text.toList := by
  have hsign : '\n' ≠ d.tag.sign := by cases d.tag <;> decide
  rw [text, String.toList_ofList, List.mem_cons, List.mem_cons]
  rintro (hnew | hnew | hnew)
  · exact hsign hnew
  · exact absurd hnew (by decide)
  · exact h hnew

/-- A printed list of diagnostics is cut into their texts, and nothing is left behind the last. -/
theorem splitOn_printAll {ds : List Diagnostic} (h : ∀ d ∈ ds, '\n' ∉ d.line.toList) :
    (printAll ds).toList.splitOn '\n' = ds.map (·.text.toList) ++ [[]] := by
  induction ds with
  | nil => rfl
  | cons d ds ih =>
      have hline : '\n' ∉ d.text.toList := newline_notMem_text (h d List.mem_cons_self)
      have hrest := ih fun d' hd' => h d' (List.mem_cons_of_mem _ hd')
      have hfirst : (printAll (d :: ds)).toList
          = d.text.toList ++ '\n' :: (printAll ds).toList := by
        rw [printAll, printedLines, List.map_cons, String.join_cons, String.toList_append,
          String.toList_append, List.append_assoc]
        rfl
      rw [List.splitOn] at hrest ⊢
      rw [hfirst, List.splitOnP_append_cons _ _ (by rfl), hrest]
      rw [← List.splitOn, List.splitOn_eq_singleton hline]
      rfl

theorem mapM_read?_text (ds : List Diagnostic) :
    (ds.map (·.text.toList)).mapM (fun line => read? (String.ofList line)) = some ds := by
  induction ds with
  | nil => rfl
  | cons d ds ih =>
      rw [List.map_cons, List.mapM_cons, ih, String.ofList_toList, read?_text]
      rfl

/-- **Diagnostics without newlines are read back** from the text they are printed as. -/
theorem readAll?_printAll {ds : List Diagnostic} (h : ∀ d ∈ ds, '\n' ∉ d.line.toList) :
    readAll? (printAll ds) = some ds := by
  unfold readAll?
  dsimp only
  rw [splitOn_printAll h, List.getLast?_concat, List.dropLast_concat, if_pos rfl]
  exact mapM_read?_text ds

end Diagnostic

/-! ## Comparisons -/

namespace Comparison

variable (verbose : Bool) (fs : Files) (test : String) (expectation : Path) (output : String)
  (opened : Except Cause (List Delivery))

/-- A comparison finds bare lines only, whatever opening the expectation gave. -/
theorem bare_of_mem_ofOpened :
    ∀ d ∈ (ofOpened verbose fs test expectation output opened).report.diagnostics, Bare d.line := by
  cases opened with
  | error cause => exact fun _ h => absurd h List.not_mem_nil
  | ok feed =>
      intro d hd
      exact Alignment.bare_of_mem_diagnostics (.ofDeliveries feed) (.ofText output) hd

/-- Unless both texts are asked for in full, the diagnostics are all that is printed. -/
theorem join_printed_of_quiet (h : verbose = false) :
    String.join (ofOpened verbose fs test expectation output opened).printed
      = (ofOpened verbose fs test expectation output opened).report.diagnosticsText := by
  subst h
  exact (join_printed_ofOpened false fs test expectation output opened).trans String.append_empty

/-- A comparison that passes finds nothing. -/
theorem diagnostics_eq_nil_of_passed
    (h : (ofOpened verbose fs test expectation output opened).report.passed = true) :
    (ofOpened verbose fs test expectation output opened).report.diagnostics = [] := by
  have hannounces := announces_ofOpened fs test verbose expectation output opened
  exact ((hannounces.wellFormed.output hannounces.kind_eq).2.mp h).2

end Comparison

namespace Verifier

/-- **What a comparison of texts prints stands for what it found.**  Unless both texts are asked for
in full, a sink that takes everything is given one text.  Cut at its newlines, and each line taken
apart into its sign, a space and the rest, this text gives back the diagnostics of the report in
order; for no line among them has a newline or ends in a carriage return.  If the comparison passes,
nothing is written. -/
theorem compareOutput_reads_back (v : Verifier) (hquiet : v.config.verbose = false) (fs : Files)
    (heard : List (String × Event)) (annotations : Sink) (held : List UInt8) (test : String)
    (expectation : Path) (output : String) :
    let audience : Audience := ⟨heard, annotations, .willing held⟩
    let outcome := (v.compareOutput fs audience test expectation output).value
    ∃ (report : Report) (written : String),
      outcome.report = some report ∧
      outcome.audience.output = .willing (held ++ bytesOfText written) ∧
      (∀ d ∈ report.diagnostics, Bare d.line) ∧
      Diagnostic.readAll? written = some report.diagnostics ∧
      (report.passed = true → written = "") := by
  intro audience outcome
  let c := Comparison.ofOutput v.config.verbose fs test expectation output
  have houtcome : outcome = (v.tell audience c).value :=
    congrArg Traced.value (v.compareOpened_eq_tell fs audience test expectation output _)
  have hbare : ∀ d ∈ c.report.diagnostics, Bare d.line :=
    Comparison.bare_of_mem_ofOpened v.config.verbose fs test expectation output _
  rw [houtcome]
  refine ⟨c.report, c.report.diagnosticsText, rfl, ?printed, hbare, ?read, ?silent⟩
  case printed =>
    have hprinted : String.join c.printed = c.report.diagnosticsText :=
      Comparison.join_printed_of_quiet v.config.verbose fs test expectation output _ hquiet
    rw [← hprinted]
    exact Audience.output_hearAll v.annotators c.report.test audience c.tellings rfl
  case read =>
    exact Diagnostic.readAll?_printAll fun d hd => (hbare d hd).newline_notMem
  case silent =>
    intro hpassed
    have hnone : c.report.diagnostics = [] :=
      Comparison.diagnostics_eq_nil_of_passed v.config.verbose fs test expectation output _ hpassed
    rw [Report.diagnosticsText, hnone]
    rfl

/-- Lines of the output that look like diagnostics, a blank one, a carriage return within a line and
bytes that are no text: what is written behind earlier bytes is read back. -/
theorem compareOutput_reads_back_disguised :
    let v : Verifier := .ofConfig .default
    let bytes : List UInt8 := [0x61, 0x0D, 0x62, 0x0D, 0x0D, 0x0A, 0xFF, 0x0A, 0x7A]
    let fs : Files := ⟨[(["alu.expected"], .file (.raw bytes))], []⟩
    let audience : Audience := ⟨[], .unlimited, .willing [0xFF]⟩
    let outcome :=
      (v.compareOutput fs audience "cpu/alu" ⟨"alu.expected"⟩ "+ x\n\nE y\r\n- z\n").value
    v.config.verbose = false ∧
    ∃ written : String,
      outcome.audience.output = .willing ([0xFF] ++ bytesOfText written) ∧
      Diagnostic.readAll? written
        = some [⟨.observed, "+ x"⟩, ⟨.expected, "a\rb"⟩, ⟨.observed, ""⟩, ⟨.expected, "\uFFFD"⟩,
            ⟨.observed, "E y"⟩, ⟨.expected, "z"⟩, ⟨.added, "- z"⟩] := by
  intro v bytes fs audience outcome
  have hquiet : v.config.verbose = false := rfl
  obtain ⟨report, written, hreport, hwritten, -, hread, -⟩ :=
    v.compareOutput_reads_back hquiet fs [] .unlimited [0xFF] "cpu/alu" ⟨"alu.expected"⟩
      "+ x\n\nE y\r\n- z\n"
  have hfound : outcome.report.map (·.diagnostics)
      = some [⟨.observed, "+ x"⟩, ⟨.expected, "a\rb"⟩, ⟨.observed, ""⟩, ⟨.expected, "\uFFFD"⟩,
          ⟨.observed, "E y"⟩, ⟨.expected, "z"⟩, ⟨.added, "- z"⟩] := by
    decide +kernel
  rw [hreport] at hfound
  exact ⟨hquiet, written, hwritten, hread.trans hfound⟩

end Verifier

end Golden
