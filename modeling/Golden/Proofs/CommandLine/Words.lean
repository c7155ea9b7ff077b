import Golden.Proofs.CommandLine.Readings

/-!
# Golden.Proofs.CommandLine.Words — words that only say how to report

Four words of a command line say nothing about what is to be compared (`modeWords`).  **Striking
them out leaves the command and the configuration as they were** (`Invocation.ofWords_strikeModes`),
so two command lines that are the same but for such words ask for the same comparison.  The
invariant is that of two readings one has been given the same as the other but for some modes
(`Given.Below`): what has been given less can be given whatever the other one can.

Two of these words are the only way to say what they say (`OnlyByName`): their options are flags
that have no letter, so no bundle can hold them.  **Such a flag is given exactly if its word is
among those that can be options** (`OnlyByName.flag_reading`, `Invocation.ofWords_flags`).

Both are inductions on a `Reading`, one for each loop at a time.
-/

namespace Golden.CommandLine

variable {specs : List OptionSpec} {leading : Bool}

/-! ## Modes -/

/-- The options that only say how to report. -/
def modeNames : List String := ["verbose", "teamcity", "json"]

/-- The words that give one of these options and nothing else. -/
def modeWords : List String := ["--verbose", "-v", "--teamcity", "--json"]

/-- Words without those that only say how to report; behind a `--` all words are operands. -/
def strikeModes : List String → List String
  | [] => []
  | text :: rest =>
    if Word.ofText text = .endOfOptions then text :: rest
    else if text ∈ modeWords then strikeModes rest
    else text :: strikeModes rest

theorem strikeModes_endOfOptions {text : String} (h : Word.ofText text = .endOfOptions)
    (rest : List String) : strikeModes (text :: rest) = text :: rest := by
  rw [strikeModes, if_pos h]

/-- No operand is a mode. -/
theorem strikeModes_operand {text operand : String} (h : Word.ofText text = .operand operand)
    (rest : List String) : strikeModes (text :: rest) = text :: strikeModes rest := by
  have hnone : ∀ word ∈ modeWords, ∀ other, Word.ofText word ≠ .operand other := by
    intro word hword
    simp only [modeWords, List.mem_cons, List.not_mem_nil, or_false] at hword
    rcases hword with rfl | rfl | rfl | rfl <;> exact fun _ => Word.noConfusion
  have hmode : text ∉ modeWords := fun hmem => hnone text hmem operand h
  rw [strikeModes, if_neg (by rw [h]; exact Word.noConfusion), if_neg hmode]

namespace Given

variable {g g' h h' : Given}

/-- The same has been given, but perhaps fewer modes. -/
structure Below (g g' : Given) : Prop where
  others : ∀ name ∉ modeNames, g.options.lookup name = g'.options.lookup name
  modes : ∀ name, g'.options.lookup name = none → g.options.lookup name = none
  operand : g.operand = g'.operand

theorem Below.refl (g : Given) : g.Below g := ⟨fun _ _ => rfl, fun _ => id, rfl⟩

/-- What can be given in addition can also be given to what has been given less. -/
theorem Below.addOption {spec : OptionSpec} {text : Option String} (hbelow : g.Below g')
    (hadd : g'.addOption spec text = .ok h') :
    ∃ h, g.addOption spec text = .ok h ∧ h.Below h' := by
  obtain ⟨value, hvalue, hfree, rfl⟩ := addOption_eq_ok_iff.mp hadd
  have hfree' := hbelow.modes _ hfree
  refine ⟨_, addOption_eq_ok_iff.mpr ⟨value, hvalue, hfree', rfl⟩, ?_, ?_, hbelow.operand⟩
  · intro name hname
    simp only [List.lookup_cons, hbelow.others name hname]
  · intro name hnone
    rw [List.lookup_cons] at hnone ⊢
    split
    · rename_i heq
      rw [heq] at hnone
      cases hnone
    · rename_i heq
      rw [heq] at hnone
      exact hbelow.modes name hnone

/-- A mode changes nothing else. -/
theorem Below.of_mode {spec : OptionSpec} {text : Option String} (hspec : spec.name ∈ modeNames)
    (hbelow : g.Below g') (hadd : g'.addOption spec text = .ok h') : g.Below h' := by
  obtain ⟨value, -, hfree, rfl⟩ := addOption_eq_ok_iff.mp hadd
  refine ⟨?_, ?_, hbelow.operand⟩
  · intro name hname
    have hne : (name == spec.name) = false := by
      rw [beq_eq_false_iff_ne]
      rintro rfl
      exact hname hspec
    rw [List.lookup_cons, hne]
    exact hbelow.others name hname
  · intro name hnone
    rw [List.lookup_cons] at hnone
    split at hnone
    · cases hnone
    · exact hbelow.modes name hnone

theorem Below.addOperand {text : String} (hbelow : g.Below g')
    (hadd : g'.addOperand text = .ok h') : ∃ h, g.addOperand text = .ok h ∧ h.Below h' := by
  unfold Given.addOperand at hadd ⊢
  rw [hbelow.operand]
  split at hadd
  · cases hadd
    exact ⟨_, rfl, hbelow.others, hbelow.modes, rfl⟩
  · cases hadd

theorem Below.addOperands {texts : List String} (hbelow : g.Below g')
    (hadd : texts.foldlM Given.addOperand g' = .ok h') :
    ∃ h, texts.foldlM Given.addOperand g = .ok h ∧ h.Below h' := by
  induction texts generalizing g g' with
  | nil =>
      cases hadd
      exact ⟨g, rfl, hbelow⟩
  | cons text texts ih =>
      rw [List.foldlM_cons] at hadd ⊢
      obtain ⟨g₁', hfirst', hadd⟩ := exists_of_bind_eq_ok hadd
      obtain ⟨g₁, hfirst, hbelow₁⟩ := hbelow.addOperand hfirst'
      obtain ⟨h, hothers, hbelow⟩ := ih hbelow₁ hadd
      refine ⟨h, ?_, hbelow⟩
      rw [hfirst]
      exact hothers

theorem Below.readBundle {letters : List Char} {waiting : Option OptionSpec} (hbelow : g.Below g')
    (hread : CommandLine.readBundle specs g' letters = .ok (h', waiting)) :
    ∃ h, CommandLine.readBundle specs g letters = .ok (h, waiting) ∧ h.Below h' := by
  induction letters generalizing g g' with
  | nil =>
      cases hread
      exact ⟨g, rfl, hbelow⟩
  | cons letter letters ih =>
      rw [CommandLine.readBundle] at hread ⊢
      cases hfind : specs.find? (·.letter == some letter) with
      | none =>
          rw [hfind] at hread
          cases hread
      | some spec =>
          rw [hfind] at hread
          dsimp only at hread ⊢
          split at hread
          · cases hread
            exact ⟨g, rfl, hbelow⟩
          · obtain ⟨h₁', hgiven', hread⟩ := exists_of_bind_eq_ok hread
            obtain ⟨h₁, hgiven, hbelow₁⟩ := hbelow.addOption hgiven'
            cases hread
            refine ⟨h₁, ?_, hbelow₁⟩
            rw [hgiven]
            rfl
          · obtain ⟨h₁', hgiven', hread⟩ := exists_of_bind_eq_ok hread
            obtain ⟨h₁, hgiven, hbelow₁⟩ := hbelow.addOption hgiven'
            cases hread
            refine ⟨h₁, ?_, hbelow₁⟩
            rw [hgiven]
            rfl
          · obtain ⟨h₁', hgiven', hread⟩ := exists_of_bind_eq_ok hread
            obtain ⟨h₁, hgiven, hbelow₁⟩ := hbelow.addOption hgiven'
            obtain ⟨h, hothers, hbelow⟩ := ih hbelow₁ hread
            refine ⟨h, ?_, hbelow⟩
            rw [hgiven]
            exact hothers

theorem Below.readOption {word : Word} {waiting : Option OptionSpec} (hbelow : g.Below g')
    (hread : CommandLine.readOption specs g' word = .ok (h', waiting)) :
    ∃ h, CommandLine.readOption specs g word = .ok (h, waiting) ∧ h.Below h' := by
  cases word with
  | endOfOptions => cases hread
  | operand text => cases hread
  | bundle letters => exact hbelow.readBundle hread
  | named name value =>
      unfold CommandLine.readOption at hread ⊢
      dsimp only at hread ⊢
      cases hfind : specs.find? (·.name == name) with
      | none =>
          rw [hfind] at hread
          cases hread
      | some spec =>
          rw [hfind] at hread
          dsimp only at hread ⊢
          split at hread
          · cases hread
            exact ⟨g, rfl, hbelow⟩
          · obtain ⟨h₁', hgiven', hread⟩ := exists_of_bind_eq_ok hread
            obtain ⟨h₁, hgiven, hbelow₁⟩ := hbelow.addOption hgiven'
            cases hread
            refine ⟨h₁, ?_, hbelow₁⟩
            rw [hgiven]
            rfl

end Given

/-! ## Striking out modes -/

/-- Options among which each of the mode words gives one of the modes, without a value. -/
def ReadsModes (specs : List OptionSpec) : Prop :=
  ∀ text ∈ modeWords, ∃ spec : OptionSpec, spec.name ∈ modeNames ∧
    ∀ g, readOption specs g (Word.ofText text) = (g.addOption spec none).map (·, none)

/-- Reading a mode word adds one of the modes. -/
theorem ReadsModes.of_readOption (hmodes : ReadsModes specs) {text : String}
    (hmode : text ∈ modeWords) {g h : Given} {waiting : Option OptionSpec}
    (hread : readOption specs g (Word.ofText text) = .ok (h, waiting)) :
    waiting = none ∧
      ∃ spec : OptionSpec, spec.name ∈ modeNames ∧ g.addOption spec none = .ok h := by
  obtain ⟨spec, hspec, hreads⟩ := hmodes text hmode
  rw [hreads g] at hread
  cases hadd : g.addOption spec none with
  | error stop =>
      rw [hadd] at hread
      cases hread
  | ok added =>
      rw [hadd] at hread
      cases hread
      exact ⟨rfl, spec, hspec, hadd⟩

theorem readsModes_commonSpecs : ReadsModes commonSpecs := by
  intro text htext
  simp only [modeWords, List.mem_cons, List.not_mem_nil, or_false] at htext
  rcases htext with rfl | rfl | rfl | rfl
  · exact ⟨⟨"verbose", some 'v', .flag⟩, by decide, fun g => rfl⟩
  · exact ⟨⟨"verbose", some 'v', .flag⟩, by decide, fun g => rfl⟩
  · exact ⟨⟨"teamcity", none, .flag⟩, by decide, fun g => rfl⟩
  · exact ⟨⟨"json", none, .flag⟩, by decide, fun g => rfl⟩

theorem readsModes_specs : ∀ spec ∈ commands, ReadsModes (spec.specs ++ commonSpecs) := by
  intro spec hspec text htext
  simp only [commands, List.mem_cons, List.not_mem_nil, or_false] at hspec
  simp only [modeWords, List.mem_cons, List.not_mem_nil, or_false] at htext
  rcases htext with rfl | rfl | rfl | rfl
  · refine ⟨⟨"verbose", some 'v', .flag⟩, by decide, ?_⟩
    rcases hspec with rfl | rfl | rfl <;> exact fun g => rfl
  · refine ⟨⟨"verbose", some 'v', .flag⟩, by decide, ?_⟩
    rcases hspec with rfl | rfl | rfl <;> exact fun g => rfl
  · refine ⟨⟨"teamcity", none, .flag⟩, by decide, ?_⟩
    rcases hspec with rfl | rfl | rfl <;> exact fun g => rfl
  · refine ⟨⟨"json", none, .flag⟩, by decide, ?_⟩
    rcases hspec with rfl | rfl | rfl <;> exact fun g => rfl

/-- **What can be read can be read without its modes, and all else is given by it as before.** -/
theorem Reading.strikeModes (hmodes : ReadsModes specs) {g g' h' : Given}
    {words later : List String} (hread : Reading specs leading g' words h' later)
    (hbelow : g.Below g') :
    ∃ h, Reading specs leading g (CommandLine.strikeModes words) h (CommandLine.strikeModes later) ∧
      h.Below h' := by
  induction hread generalizing g with
  | done => exact ⟨g, .done, hbelow⟩
  | stop hleading hword =>
      rw [strikeModes_operand hword]
      exact ⟨g, .stop hleading hword, hbelow⟩
  | operand hbehind hword hgiven' _ ih =>
      obtain ⟨g₁, hgiven, hbelow₁⟩ := hbelow.addOperand hgiven'
      obtain ⟨h, hread, hbelow'⟩ := ih hbelow₁
      rw [strikeModes_operand hword]
      exact ⟨h, .operand hbehind hword hgiven hread, hbelow'⟩
  | operands hbehind hword hgiven' =>
      obtain ⟨h, hgiven, hbelow'⟩ := hbelow.addOperands hgiven'
      rw [strikeModes_endOfOptions hword]
      exact ⟨h, .operands hbehind hword hgiven, hbelow'⟩
  | @option g' g₁' h' text rest later hoption' _ ih =>
      rw [CommandLine.strikeModes, if_neg (readOption_ok hoption').1]
      by_cases hmode : text ∈ modeWords
      · -- the mode is struck out, and the other reading goes on as if nothing had happened
        obtain ⟨-, spec, hspec, hadd⟩ := hmodes.of_readOption hmode hoption'
        rw [if_pos hmode]
        exact ih (hbelow.of_mode hspec hadd)
      · obtain ⟨g₁, hoption, hbelow₁⟩ := hbelow.readOption hoption'
        obtain ⟨h, hread, hbelow'⟩ := ih hbelow₁
        rw [if_neg hmode]
        exact ⟨h, .option hoption hread, hbelow'⟩
  | @valued g' g₁' g₂' h' text value operand spec rest later hoption' hvalue hgiven' _ ih =>
      -- no mode waits for a value
      have hmode : text ∉ modeWords := by
        intro hmode
        cases (hmodes.of_readOption hmode hoption').1
      obtain ⟨g₁, hoption, hbelow₁⟩ := hbelow.readOption hoption'
      obtain ⟨g₂, hgiven, hbelow₂⟩ := hbelow₁.addOption hgiven'
      obtain ⟨h, hread, hbelow'⟩ := ih hbelow₂
      rw [CommandLine.strikeModes, if_neg (readOption_ok hoption').1, if_neg hmode,
        strikeModes_operand hvalue]
      exact ⟨h, .valued hoption hvalue hgiven hread, hbelow'⟩

/-! ## Invocations -/

/-- The name of a command is read as an operand. -/
theorem operand_of_mem_commands {spec : CommandSpec} (h : spec ∈ commands) :
    Word.ofText spec.name = .operand spec.name := by
  simp only [commands, List.mem_cons, List.not_mem_nil, or_false] at h
  rcases h with rfl | rfl | rfl <;> rfl

namespace Given.Below

variable {g g' : Given}

theorem capture_eq (h : g.Below g') : CaptureSource.ofGiven? g = CaptureSource.ofGiven? g' := by
  unfold CaptureSource.ofGiven? path? format? count? flag
  rw [h.others "capture" (by decide), h.others "format" (by decide),
    h.others "capture-stride" (by decide), h.others "capture-width" (by decide),
    h.others "capture-height" (by decide), h.others "bottom-up" (by decide),
    h.others "stride" (by decide), h.others "width" (by decide), h.others "height" (by decide)]

/-- No command is described by modes. -/
theorem command_eq (h : g.Below g') : ∀ spec ∈ commands, spec.ofGiven? g = spec.ofGiven? g' := by
  intro spec hspec
  simp only [commands, List.mem_cons, List.not_mem_nil, or_false] at hspec
  rcases hspec with rfl | rfl | rfl
  · show textOfGiven? g = textOfGiven? g'
    unfold textOfGiven? path? text?
    rw [h.operand, h.others "output" (by decide), h.others "expected" (by decide),
      h.others "name" (by decide)]
  · show screenshotOfGiven? g = screenshotOfGiven? g'
    unfold screenshotOfGiven? path? ratio? text?
    rw [h.operand, h.capture_eq, h.others "reference" (by decide),
      h.others "max-error-ratio" (by decide), h.others "diff-dir" (by decide),
      h.others "name" (by decide)]
  · show blessOfGiven? g = blessOfGiven? g'
    unfold blessOfGiven? path?
    rw [h.operand, h.capture_eq, h.others "reference" (by decide)]

theorem configPath_eq {front front' behind behind' : Given} (hfront : front.Below front')
    (hbehind : behind.Below behind') (fromEnvironment : Option String) :
    Invocation.configPath front behind fromEnvironment
      = Invocation.configPath front' behind' fromEnvironment := by
  unfold Invocation.configPath path?
  rw [hfront.others "config" (by decide), hbehind.others "config" (by decide)]

end Given.Below

namespace Invocation

variable {words : List String} {fromEnvironment : Option String} {i : Invocation}

/-- **Words that only say how to report leave the command and the configuration as they were.** -/
theorem ofWords_strikeModes (h : ofWords words fromEnvironment = .ok i) :
    ∃ struck, ofWords (strikeModes words) fromEnvironment = .ok struck ∧
      struck.command = i.command ∧ struck.config = i.config := by
  obtain ⟨front', spec, later, behind', hspec, hfront', hbehind', hmade⟩ := ofWords_eq_ok_iff.mp h
  obtain ⟨front, hfront, hfrontBelow⟩ := hfront'.strikeModes readsModes_commonSpecs (.refl _)
  obtain ⟨behind, hbehind, hbehindBelow⟩ :=
    hbehind'.strikeModes (readsModes_specs spec hspec) (.refl _)
  rw [strikeModes_operand (operand_of_mem_commands hspec)] at hfront
  obtain ⟨config, hconfig, hmade⟩ := exists_of_bind_eq_ok hmade
  split at hmade
  · cases hmade
  · rename_i command hcommand
    cases hmade
    let struck : Invocation := {
      config
      verbose := front.flag "verbose" || behind.flag "verbose"
      teamCity := front.flag "teamcity" || behind.flag "teamcity"
      json := front.flag "json" || behind.flag "json"
      command }
    have hstruck : ofGiven spec front behind fromEnvironment = .ok struck := by
      unfold ofGiven
      rw [hfrontBelow.configPath_eq hbehindBelow, hconfig, hbehindBelow.command_eq spec hspec,
        hcommand]
      rfl
    refine ⟨struck, ?_, rfl, rfl⟩
    exact ofWords_eq_ok_iff.mpr ⟨front, spec, _, behind, hspec, hfront, hbehind, hstruck⟩

/-- Command lines that are the same but for such words ask for the same. -/
theorem asksFor_eq_of_strikeModes_eq {words' : List String} {i' : Invocation}
    (hstruck : strikeModes words' = strikeModes words)
    (h : ofWords words fromEnvironment = .ok i) (h' : ofWords words' fromEnvironment = .ok i') :
    i'.command = i.command ∧ i'.config = i.config := by
  obtain ⟨struck, hofWords, hcommand, hconfig⟩ := ofWords_strikeModes h
  obtain ⟨struck', hofWords', hcommand', hconfig'⟩ := ofWords_strikeModes h'
  rw [hstruck, hofWords] at hofWords'
  cases hofWords'
  exact ⟨hcommand'.symm.trans hcommand, hconfig'.symm.trans hconfig⟩

end Invocation

/-! ## Words that give a flag -/

/-- The words of a command line that can be options: those up to a `--`. -/
def optionWords (words : List String) : List String := words.takeWhile (· != "--")

theorem Word.ofText_eq_endOfOptions_iff {text : String} :
    ofText text = .endOfOptions ↔ text = "--" := by
  constructor
  · intro h
    unfold ofText at h
    split at h
    · rename_i htext
      exact String.toList_inj.mp htext
    · dsimp only at h
      split at h <;> cases h
    · cases h
    · cases h
  · rintro rfl
    rfl

theorem optionWords_endOfOptions {text : String} (h : Word.ofText text = .endOfOptions)
    (rest : List String) : optionWords (text :: rest) = [] := by
  rw [Word.ofText_eq_endOfOptions_iff.mp h]
  rfl

theorem optionWords_cons {text : String} (h : Word.ofText text ≠ .endOfOptions)
    (rest : List String) : optionWords (text :: rest) = text :: optionWords rest := by
  have hne : (text != "--") = true := by
    rw [bne_iff_ne]
    exact fun htext => h (Word.ofText_eq_endOfOptions_iff.mpr htext)
  exact List.takeWhile_cons_of_pos hne

theorem optionWords_operand {text operand : String} (h : Word.ofText text = .operand operand)
    (rest : List String) : optionWords (text :: rest) = text :: optionWords rest :=
  optionWords_cons (fun hend => nomatch h.symm.trans hend) rest

/-- A name that only one word can give: it belongs to flags, and they have no letters. -/
structure OnlyByName (specs : List OptionSpec) (name : String) : Prop where
  flags : ∀ spec ∈ specs, spec.name = name → spec.letter = none ∧ spec.role = .flag
  word : Word.ofText ("--" ++ name) = .named name none

theorem Word.eq_of_ofText_eq_named {text name : String} (h : ofText text = .named name none) :
    text = "--" ++ name := by
  unfold ofText at h
  split at h
  · cases h
  · rename_i rest _ htext
    dsimp only at h
    split at h
    · rename_i hdrop
      cases h
      have hrest : rest.takeWhile (· != '=') = rest := by
        have happend := List.takeWhile_append_dropWhile (p := (· != '=')) (l := rest)
        rwa [hdrop, List.append_nil] at happend
      rw [hrest, ← String.toList_inj, htext, String.toList_append]
      simp
    · cases h
  · cases h
  · cases h

namespace OnlyByName

variable {name : String} {g h : Given}

/-- No bundle gives a flag without a letter. -/
theorem flag_readBundle (hname : OnlyByName specs name) {letters : List Char}
    {waiting : Option OptionSpec} (hread : readBundle specs g letters = .ok (h, waiting)) :
    (h.flag name = true ↔ g.flag name = true) ∧ ∀ spec ∈ waiting, spec.name ≠ name := by
  induction letters generalizing g with
  | nil =>
      cases hread
      exact ⟨Iff.rfl, fun spec hspec => nomatch hspec⟩
  | cons letter letters ih =>
      rw [readBundle] at hread
      split at hread
      · cases hread
      · rename_i spec hfind
        have hne : spec.name ≠ name := by
          intro heq
          have hletter := (hname.flags spec (List.mem_of_find?_eq_some hfind) heq).1
          have hfound := List.find?_some hfind
          rw [hletter] at hfound
          cases hfound
        have hadd {g₁ : Given} {text : Option String} (hgiven : g.addOption spec text = .ok g₁) :
            g₁.flag name = true ↔ g.flag name = true := by
          rw [Given.flag_addOption name hgiven, or_iff_right hne]
        split at hread
        · cases hread
          refine ⟨Iff.rfl, ?_⟩
          rintro _ ⟨⟩
          exact hne
        · obtain ⟨g₁, hgiven, hread⟩ := exists_of_bind_eq_ok hread
          cases hread
          exact ⟨hadd hgiven, fun spec hspec => nomatch hspec⟩
        · obtain ⟨g₁, hgiven, hread⟩ := exists_of_bind_eq_ok hread
          cases hread
          exact ⟨hadd hgiven, fun spec hspec => nomatch hspec⟩
        · obtain ⟨g₁, hgiven, hread⟩ := exists_of_bind_eq_ok hread
          rw [← hadd hgiven]
          exact ih hread

/-- An option by its name gives the flag if it has the flag's name and no value. -/
theorem flag_readNamed (hname : OnlyByName specs name) {other : String} {value : Option String}
    {waiting : Option OptionSpec}
    (hread : readOption specs g (.named other value) = .ok (h, waiting)) :
    (h.flag name = true ↔ (other = name ∧ value = none) ∨ g.flag name = true) ∧
      ∀ spec ∈ waiting, spec.name ≠ name := by
  rw [readOption] at hread
  split at hread
  · cases hread
  · rename_i spec hfind
    have hother : spec.name = other := by simpa using List.find?_some hfind
    have hrole := fun heq => (hname.flags spec (List.mem_of_find?_eq_some hfind) heq).2
    split at hread
    · -- an option that waits for its value is no flag
      rename_i kind hkind
      have hne : spec.name ≠ name := fun heq => nomatch hkind.symm.trans (hrole heq)
      cases hread
      refine ⟨?_, ?_⟩
      · rw [or_iff_right fun hgiven => hne (hother.trans hgiven.1)]
      · rintro _ ⟨⟩
        exact hne
    · rename_i value _ _ _
      obtain ⟨g₁, hgiven, hread⟩ := exists_of_bind_eq_ok hread
      cases hread
      refine ⟨?_, fun spec hspec => nomatch hspec⟩
      have hnone : other = name → value = none := by
        intro heq
        obtain ⟨given, hvalue, -, -⟩ := Given.addOption_eq_ok_iff.mp hgiven
        unfold Given.valueOf? at hvalue
        rw [hrole (hother.trans heq)] at hvalue
        cases value with
        | none => rfl
        | some text => cases hvalue
      rw [Given.flag_addOption name hgiven, hother, and_iff_left_of_imp hnone]

/-- One option: the flag is given by its word alone. -/
theorem flag_readOption (hname : OnlyByName specs name) {text : String}
    {waiting : Option OptionSpec}
    (hread : readOption specs g (Word.ofText text) = .ok (h, waiting)) :
    (h.flag name = true ↔ text = "--" ++ name ∨ g.flag name = true) ∧
      ∀ spec ∈ waiting, spec.name ≠ name := by
  have hiff : text = "--" ++ name ↔ Word.ofText text = .named name none := by
    constructor
    · rintro rfl
      exact hname.word
    · exact Word.eq_of_ofText_eq_named
  rw [hiff]
  cases hword : Word.ofText text with
  | endOfOptions =>
      rw [hword] at hread
      cases hread
  | operand operand =>
      rw [hword] at hread
      cases hread
  | bundle letters =>
      rw [hword] at hread
      rw [or_iff_right Word.noConfusion]
      exact hname.flag_readBundle hread
  | named other value =>
      rw [hword] at hread
      rw [Word.named.injEq]
      exact hname.flag_readNamed hread

/-- **A reading gives the flag if its word is among those that were read.** -/
theorem flag_reading (hname : OnlyByName specs name) {words later : List String}
    (hread : Reading specs leading g words h later) :
    h.flag name = true ∨ "--" ++ name ∈ optionWords later ↔
      g.flag name = true ∨ "--" ++ name ∈ optionWords words := by
  -- only a word that is read as the option can be the flag's
  have hother {text operand : String} (hword : Word.ofText text = .operand operand) :
      "--" ++ name ≠ text := by
    rintro rfl
    rw [hname.word] at hword
    cases hword
  induction hread with
  | done => exact Iff.rfl
  | stop => exact Iff.rfl
  | operand _ hword hgiven _ ih =>
      refine ih.trans ?_
      rw [Given.flag_addOperand name hgiven, optionWords_operand hword,
        List.mem_cons, or_iff_right (hother hword)]
  | operands _ hword hgiven =>
      rw [Given.flag_addOperands name hgiven, optionWords_endOfOptions hword]
      rfl
  | option hoption _ ih =>
      refine ih.trans ?_
      rw [(hname.flag_readOption hoption).1, optionWords_cons (readOption_ok hoption).1,
        List.mem_cons, eq_comm (a := "--" ++ name), or_assoc, or_left_comm]
  | valued hoption hvalue hgiven _ ih =>
      have hne := (hname.flag_readOption hoption).2 _ rfl
      refine ih.trans ?_
      rw [Given.flag_addOption name hgiven, or_iff_right hne,
        (hname.flag_readOption hoption).1, optionWords_cons (readOption_ok hoption).1,
        optionWords_operand hvalue, List.mem_cons, List.mem_cons, or_iff_right (hother hvalue),
        eq_comm (a := "--" ++ name), or_assoc, or_left_comm]

/-- The flag is given in front of a command or behind it if its word is one of all the words. -/
theorem flag_or_flag {front behind : Given} {words later : List String} {command : CommandSpec}
    (hcommand : command ∈ commands) (hfront : OnlyByName commonSpecs name)
    (hbehind : OnlyByName (command.specs ++ commonSpecs) name)
    (hreadFront : Reading commonSpecs true .empty words front (command.name :: later))
    (hreadBehind : Reading (command.specs ++ commonSpecs) false .empty later behind []) :
    (front.flag name || behind.flag name) = true ↔ "--" ++ name ∈ optionWords words := by
  have hfrontIff := hfront.flag_reading hreadFront
  have hbehindIff := hbehind.flag_reading hreadBehind
  have hempty : Given.empty.flag name = true ↔ False := by simp [Given.flag, Given.empty]
  have hword := operand_of_mem_commands hcommand
  have hne : "--" ++ name ≠ command.name := by
    intro heq
    rw [← heq, hfront.word] at hword
    cases hword
  -- in front, what has been given and what is left are all the words; behind, nothing is left
  rw [optionWords_operand hword, List.mem_cons, or_iff_right hne, hempty, false_or] at hfrontIff
  rw [show optionWords [] = [] from rfl, hempty, false_or] at hbehindIff
  rw [← hfrontIff, ← hbehindIff, Bool.or_eq_true]
  simp

end OnlyByName

/-- Two of the modes can be given by one word only. -/
theorem onlyByName_modes : ∀ name ∈ ["teamcity", "json"],
    OnlyByName commonSpecs name ∧
      ∀ spec ∈ commands, OnlyByName (spec.specs ++ commonSpecs) name := by
  intro name hname
  simp only [List.mem_cons, List.not_mem_nil, or_false] at hname
  rcases hname with rfl | rfl
  · exact ⟨⟨by decide, rfl⟩, fun spec hspec => ⟨by revert spec; decide, rfl⟩⟩
  · exact ⟨⟨by decide, rfl⟩, fun spec hspec => ⟨by revert spec; decide, rfl⟩⟩

/-- **The report is for a machine, or a build server is told, if the word for it is there.** -/
theorem Invocation.ofWords_flags {words : List String} {fromEnvironment : Option String}
    {i : Invocation} (h : ofWords words fromEnvironment = .ok i) :
    (i.json = true ↔ "--json" ∈ optionWords words) ∧
      (i.teamCity = true ↔ "--teamcity" ∈ optionWords words) := by
  obtain ⟨front, spec, later, behind, hspec, hfront, hbehind, hmade⟩ := ofWords_eq_ok_iff.mp h
  obtain ⟨config, hconfig, hmade⟩ := exists_of_bind_eq_ok hmade
  split at hmade
  · cases hmade
  · cases hmade
    have hiff := fun name hname =>
      have hby := onlyByName_modes name hname
      hby.1.flag_or_flag hspec (hby.2 spec hspec) hfront hbehind
    exact ⟨hiff "json" (by decide), hiff "teamcity" (by decide)⟩

end Golden.CommandLine
