import Mathlib
import Golden.CommandLine.Run
import Golden.Proofs.CommandLine.Words
import Golden.Proofs.Comparison.Printed
import Golden.Proofs.Comparison.Unswayed

/-!
# Golden.Proofs.CommandLine.Modes — one comparison, reported in several ways

How a run reports is said in several places: by options, by the environment, and by the file of the
configuration.  What it compares is said by the command alone.  A run that comes as far as its
comparison (`Comparing`) ends with the answer of a verifier to one call, and everything it shows is
made from the report of that answer (`Comparing.run_eq`).  Whatever comparing run ends without a
complaint has come so far (`Comparing.exists_of_run`).

* The exit code tells whether the report passed.
* For a machine the output is the report and nothing else.
* For a reader it is the annotations, then the diagnostics of texts, then on request both texts.

**None of the ways to report has a say in the report** (`Comparing.run_reported`).  The tolerated
ratio is the only setting that a report depends on, and the call is made from the command and from
what can be read at the paths it names (`Command.Compares.congr`).  So two runs of one command that
find the same to compare come to the same report and end with the same code.
-/

namespace Golden.CommandLine

/-! ## Settings -/

namespace Invocation

variable (i : Invocation) (s : Surroundings)

/-- The configuration as its file has it. -/
def loaded : Except Complaint Config :=
  match i.config with
  | none => .ok .default
  | some p => (Config.load s.files p).mapError (.during ("loading config " ++ p.text))

/-- What the options and the environment make of it. -/
def merged (c : Config) : Config :=
  { c with
    verbose := c.verbose || i.verbose
    teamCity := c.teamCity || i.teamCity
    gitHub := c.gitHub || s.underActions }

theorem configuration_eq : i.configuration s = (i.loaded s).map (i.merged s) := by
  have hmerged (c : Config) : { c.underActions s.underActions with
      verbose := (c.underActions s.underActions).verbose || i.verbose
      teamCity := (c.underActions s.underActions).teamCity || i.teamCity } = i.merged s c := by
    unfold Config.underActions merged
    cases s.underActions with
    | false => simp
    | true => simp
  unfold configuration loaded
  cases i.config with
  | none => exact congrArg Except.ok (hmerged .default)
  | some p =>
      dsimp only
      cases Config.load s.files p with
      | error failure => rfl
      | ok c => exact congrArg Except.ok (hmerged c)

end Invocation

namespace Command

/-- The settings of a comparison; a command may have its own for some. -/
def settings (c : Config) : Command → Config
  | .screenshot _ _ _ maxErrorRatio diffDirectory _ =>
    { c with
      maxErrorRatio := maxErrorRatio.getD c.maxErrorRatio
      diffDirectory := diffDirectory.or c.diffDirectory }
  | .text .. | .bless .. => c

/-! ## Commands that come to a comparison -/

/-- What a command goes on to compare under a configuration, once its settings are valid and its
inputs are readable. -/
inductive Compares (c : Config) (s : Surroundings) : Command → Call → Prop
  | text {boot output : Path} {expectation : Option Path} {test : Option String}
      {captured : String} :
      s.capturedOutput output = .ok captured →
      Compares c s (.text boot output expectation test)
        (.output (test.getD (BootFile.testName boot))
          (expectation.getD (BootFile.expectation boot)) captured)
  | screenshot {boot : Path} {source : CaptureSource} {reference : Option Path}
      {maxErrorRatio : Option Float} {diffDirectory : Option Path} {test : Option String}
      {capture : Capture} :
      (settings c (.screenshot boot source reference maxErrorRatio diffDirectory test)).check
        = .ok () →
      source.load s.files = .ok capture →
      Compares c s (.screenshot boot source reference maxErrorRatio diffDirectory test)
        (.screenshot (test.getD (BootFile.testName boot)) capture source.view
          (reference.getD (BootFile.reference boot)))

/-- Surroundings in which a command finds the same to compare. -/
def FindsSame (s s' : Surroundings) : Command → Prop
  | .text boot output expectation _ =>
    (if isStandardInput output then s.input = s'.input else s.files.SameReading s'.files output) ∧
      s.files.SameReading s'.files (expectation.getD (BootFile.expectation boot))
  | .screenshot boot source reference _ _ _ =>
    s.files.SameReading s'.files source.path ∧
      s.files.SameReading s'.files (reference.getD (BootFile.reference boot))
  | .bless _ source _ => s.files.SameReading s'.files source.path

end Command

/-- Where the same can be read, it is read in the same way. -/
theorem read_eq_ok_of_sameReading {fs other : Files} {p : Path} {bytes : List UInt8}
    (h : fs.SameReading other p) (hread : fs.read p = .ok bytes) : other.read p = .ok bytes := by
  unfold Files.read at hread ⊢
  rcases h.cases with ⟨cause, cause', hfs, hother⟩ |
    ⟨place, entry, place', entry', hfs, hother, hdeliveries⟩
  · rw [hfs] at hread
    cases hread
  · rw [hfs] at hread
    rw [hother]
    cases entry with
    | directory => cases hread
    | file content =>
        cases hread
        cases entry' with
        | directory => cases hdeliveries
        | file content' =>
            have hbytes : content.bytes = content'.bytes := by
              simpa [Entry.deliveries] using hdeliveries
            rw [hbytes]
            rfl

namespace Command

variable {c c' : Config} {s s' : Surroundings} {command : Command} {call : Call}

theorem maxErrorRatio_settings (h : c.maxErrorRatio = c'.maxErrorRatio) (command : Command) :
    (settings c command).maxErrorRatio = (settings c' command).maxErrorRatio := by
  cases command with
  | screenshot boot source reference maxErrorRatio diffDirectory test =>
      show maxErrorRatio.getD c.maxErrorRatio = maxErrorRatio.getD c'.maxErrorRatio
      rw [h]
  | text => exact h
  | bless => exact h

/-- **What is compared depends on what is found and on the tolerated ratio being valid.** -/
theorem Compares.congr (h : Compares c s command call) (hratio : c.maxErrorRatio = c'.maxErrorRatio)
    (hsame : command.FindsSame s s') : Compares c' s' command call := by
  cases h with
  | @text boot output expectation test captured hcaptured =>
      apply Compares.text
      -- the output is standard input, or a file that reads the same
      have hinput := hsame.1
      unfold Surroundings.capturedOutput at hcaptured ⊢
      split at hinput
      · rename_i hstandard
        rw [if_pos hstandard] at hcaptured ⊢
        rw [← hinput]
        exact hcaptured
      · rename_i hfile
        rw [if_neg hfile] at hcaptured ⊢
        obtain ⟨bytes, hread, hcaptured⟩ := exists_of_bind_eq_ok hcaptured
        rw [read_eq_ok_of_sameReading hinput (eq_ok_of_mapError hread)]
        exact hcaptured
  | @screenshot boot source reference maxErrorRatio diffDirectory test capture hcheck hload =>
      apply Compares.screenshot
      · unfold Config.check at hcheck ⊢
        rw [← maxErrorRatio_settings hratio]
        split at hcheck
        · rename_i hvalid
          exact if_pos hvalid
        · cases hcheck
      · unfold CaptureSource.load at hload ⊢
        obtain ⟨data, hread, hload⟩ := exists_of_bind_eq_ok hload
        rw [read_eq_ok_of_sameReading hsame.1 (eq_ok_of_mapError hread)]
        exact hload

/-- Whether the comparison is broken off depends on nothing but its size. -/
theorem Compares.comparison_eq_none_iff (h : Compares c s command call) (d : Config) (fs : Files) :
    call.comparison d fs = none ↔ call.Oversized := by
  cases h with
  | text => exact iff_of_false nofun id
  | screenshot => exact Comparison.ofScreenshot_eq_none_iff

/-- The comparison, too, reads the same. -/
theorem Compares.sameReading (h : Compares c s command call) (hsame : command.FindsSame s s') :
    s.files.SameReading s'.files call.reads := by
  cases h with
  | text => exact hsame.2
  | screenshot => exact hsame.2

end Command

/-! ## Runs that come to a comparison -/

/-- A run that comes to its comparison: its words make an invocation, its configuration is loaded,
and its command goes on to compare something. -/
structure Comparing (words : List String) (s : Surroundings) where
  invocation : Invocation
  /-- The configuration as its file has it. -/
  loaded : Config
  call : Call
  invoked : Invocation.ofWords words s.configVariable = .ok invocation
  configured : invocation.loaded s = .ok loaded
  compares : invocation.command.Compares (invocation.merged s loaded) s call

namespace Comparing

variable {words : List String} {s : Surroundings}

/-- The settings of the comparison. -/
def settings (x : Comparing words s) : Config :=
  x.invocation.command.settings (x.invocation.merged s x.loaded)

/-- What the verifier answers. -/
def outcome (x : Comparing words s) : Outcome :=
  (Verifier.ofConfig x.settings).answer s.files .attentive x.call

def report (x : Comparing words s) : Option Report := x.outcome.report

variable (x : Comparing words s)

/-- Both texts are shown if the file of the configuration or an option asks for it. -/
theorem verbose_settings : x.settings.verbose = (x.loaded.verbose || x.invocation.verbose) := by
  unfold settings
  cases x.invocation.command <;> rfl

/-- A build server is told if the file of the configuration, an option or the environment asks for
it. -/
theorem annotators_settings :
    x.settings.annotators
      = (if x.loaded.teamCity || x.invocation.teamCity then [.teamCity] else [])
        ++ if x.loaded.gitHub || s.underActions then [.gitHub] else [] := by
  unfold settings
  cases x.invocation.command <;> rfl

/-- **A run that comes to its comparison ends as its answer says.** -/
theorem run_eq : run words s = endingOf x.invocation.json x.outcome := by
  have hconfiguration : x.invocation.configuration s = .ok (x.invocation.merged s x.loaded) := by
    rw [Invocation.configuration_eq, x.configured]
    rfl
  have hrun : x.invocation.run s = .ok (endingOf x.invocation.json x.outcome) := by
    unfold Invocation.run outcome settings
    rw [hconfiguration]
    have hcompares := x.compares
    -- only the two commands that compare are left of all there are
    generalize x.invocation.command = command at hcompares ⊢
    generalize x.call = call at hcompares ⊢
    cases hcompares with
    | text hcaptured =>
        show Invocation.runText _ _ _ _ _ _ _ = _
        unfold Invocation.runText
        rw [hcaptured]
        rfl
    | screenshot hcheck hload =>
        show Invocation.runScreenshot _ _ _ _ _ _ _ _ _ = _
        unfold Invocation.runScreenshot
        dsimp only [Command.settings] at hcheck ⊢
        rw [hcheck, hload]
        rfl
  unfold run
  rw [x.invoked]
  dsimp only
  rw [hrun]

/-- A run of a command that compares comes to its comparison if it ends without a complaint. -/
theorem exists_of_run {i : Invocation} {ending : Ending}
    (hinvoked : Invocation.ofWords words s.configVariable = .ok i) (hrun : i.run s = .ok ending)
    (hcommand : ∀ boot source reference, i.command ≠ .bless boot source reference) :
    ∃ x : Comparing words s, x.invocation = i := by
  unfold Invocation.run at hrun
  rw [Invocation.configuration_eq] at hrun
  obtain ⟨c, hconfigured, hrun⟩ := exists_of_bind_eq_ok hrun
  cases hloaded : i.loaded s with
  | error complaint =>
      rw [hloaded] at hconfigured
      cases hconfigured
  | ok loaded =>
      rw [hloaded] at hconfigured
      cases hconfigured
      -- what the run went through without a complaint is what there has to be for its comparison
      suffices hcompares : ∃ call, i.command.Compares (i.merged s loaded) s call by
        obtain ⟨call, hcompares⟩ := hcompares
        exact ⟨⟨i, loaded, call, hinvoked, hloaded, hcompares⟩, rfl⟩
      split at hrun
      · rename_i hsome
        obtain ⟨captured, hcaptured, -⟩ := exists_of_bind_eq_ok hrun
        rw [hsome]
        exact ⟨_, .text hcaptured⟩
      · rename_i hsome
        obtain ⟨⟨⟩, hcheck, hrun⟩ := exists_of_bind_eq_ok hrun
        obtain ⟨capture, hload, -⟩ := exists_of_bind_eq_ok hrun
        rw [hsome]
        exact ⟨_, .screenshot (eq_ok_of_mapError hcheck) hload⟩
      · rename_i hsome
        exact absurd hsome (hcommand _ _ _)

/-- **There is no report exactly if the canonical form of a capture would be too long.** -/
theorem report_eq_none_iff : x.report = none ↔ x.call.Oversized := by
  unfold report outcome
  rw [Verifier.answer_eq, Verifier.report_tellIfAny, Option.map_eq_none_iff]
  exact x.compares.comparison_eq_none_iff _ _

/-- Then nothing has been written by the time the run is broken off. -/
theorem run_eq_brokenOff (h : x.report = none) : run words s = brokenOff "" "" s.files := by
  have houtcome : x.outcome = ⟨none, s.files, .attentive⟩ := Verifier.answer_of_report_eq_none h
  rw [x.run_eq, houtcome]
  cases x.invocation.json <;> rfl

theorem exit_run : (run words s).exit = x.report.elim 101 fun r => if r.passed then 0 else 1 := by
  rw [x.run_eq, endingOf]
  show _ = x.outcome.report.elim 101 _
  cases x.outcome.report with
  | none => cases x.invocation.json <;> rfl
  | some r => cases x.invocation.json <;> rfl

variable {r : Report}

theorem output_run_json (hreport : x.report = some r) (hjson : x.invocation.json = true) :
    (run words s).output = r.toText ++ "\n" := by
  have hreport : x.outcome.report = some r := hreport
  rw [x.run_eq, hjson, endingOf, hreport]
  rfl

theorem output_run (hreport : x.report = some r) (hjson : x.invocation.json = false) :
    (run words s).output
      = annotationsText x.settings.annotators r ++ x.call.printedText x.settings s.files r := by
  have hreport : x.outcome.report = some r := hreport
  rw [x.run_eq, hjson, endingOf, hreport]
  show x.outcome.audience.annotations.text ++ x.outcome.audience.output.text = _
  have hannotations := Verifier.annotations_answer _ _ _ hreport
  have houtput := Verifier.output_answer _ _ _ hreport
  rw [outcome, hannotations, houtput]
  rfl

/-- **For a reader, all that the comparison tells stands in the output in the order it is told.** -/
theorem output_run_shown (hjson : x.invocation.json = false) :
    ∀ c ∈ x.call.comparison x.settings s.files, x.report = some c.report ∧
      (run words s).output
        = String.join (c.tellings.map (Telling.shown x.settings.annotators c.report.test)) := by
  intro c hc
  have hreport : x.report = some c.report := by
    unfold report outcome
    rw [Verifier.answer_eq, Verifier.report_tellIfAny]
    exact congrArg (Option.map (·.report)) hc
  exact ⟨hreport, by rw [x.output_run hreport hjson, Call.join_shown _ _ _ _ c hc]⟩

/-- Another run of the same command comes to the same comparison, with the same report, if it
tolerates as much and finds the same. -/
theorem exists_of_findsSame {words' : List String} {s' : Surroundings} {i' : Invocation}
    {loaded' : Config} (hinvoked : Invocation.ofWords words' s'.configVariable = .ok i')
    (hcommand : i'.command = x.invocation.command) (hconfigured : i'.loaded s' = .ok loaded')
    (hratio : loaded'.maxErrorRatio = x.loaded.maxErrorRatio)
    (hsame : x.invocation.command.FindsSame s s') :
    ∃ x' : Comparing words' s',
      x'.invocation = i' ∧ x'.loaded = loaded' ∧ x'.call = x.call ∧ x'.report = x.report := by
  have hmerged : (x.invocation.merged s x.loaded).maxErrorRatio
      = (i'.merged s' loaded').maxErrorRatio := hratio.symm
  have hcompares : i'.command.Compares (i'.merged s' loaded') s' x.call := by
    rw [hcommand]
    exact x.compares.congr hmerged hsame
  let x' : Comparing words' s' := ⟨i', loaded', x.call, hinvoked, hconfigured, hcompares⟩
  refine ⟨x', rfl, rfl, rfl, ?_⟩
  have hsettings : x'.settings.maxErrorRatio = x.settings.maxErrorRatio := by
    show (i'.command.settings _).maxErrorRatio = (x.invocation.command.settings _).maxErrorRatio
    rw [hcommand]
    exact (Command.maxErrorRatio_settings hmerged x.invocation.command).symm
  have hread : s.files.SameReading s'.files x.call.reads := x.compares.sameReading hsame
  show Outcome.report (Verifier.answer _ _ _ _) = Outcome.report (Verifier.answer _ _ _ _)
  rw [Verifier.answer_eq, Verifier.answer_eq, Verifier.report_tellIfAny,
    Verifier.report_tellIfAny]
  exact Comparison.report_congr hsettings hread.symm

/-- **Modes agree.**  Take any run that comes to its comparison.  If that comes to a report, the run
ends with 0 if the report passed and with 1 if it did not.  With `--json` its output is the report
and a newline; without, it is the annotations, then the diagnostics of texts, and then, if that is
asked for and there is an expectation, both texts in full.  There is no report exactly if the
canonical form of a capture would be more than a vector can hold; then the run is broken off before
anything is written.

Words that only say how to report change neither the command nor the path of the configuration.  And
whatever the options, the environment and the configuration say about it, another run of the command
comes to its comparison, too, and to the same report and exit code, if its configuration loads and
tolerates as much, and if it finds the same to compare. -/
theorem run_reported :
    (∀ r, x.report = some r →
      (run words s).exit = (if r.passed then 0 else 1) ∧
      ("--json" ∈ optionWords words → (run words s).output = r.toText ++ "\n") ∧
      ("--json" ∉ optionWords words → (run words s).output
        = annotationsText x.settings.annotators r ++ x.call.printedText x.settings s.files r)) ∧
    (x.report = none ↔ x.call.Oversized) ∧
    (x.report = none → run words s = brokenOff "" "" s.files) ∧
    (∀ words' i', strikeModes words' = strikeModes words →
      Invocation.ofWords words' s.configVariable = .ok i' →
      i'.command = x.invocation.command ∧ i'.config = x.invocation.config) ∧
    ∀ words' s' i' loaded', Invocation.ofWords words' s'.configVariable = .ok i' →
      i'.command = x.invocation.command → i'.loaded s' = .ok loaded' →
      loaded'.maxErrorRatio = x.loaded.maxErrorRatio → x.invocation.command.FindsSame s s' →
      ∃ x' : Comparing words' s', x'.invocation = i' ∧ x'.loaded = loaded' ∧ x'.call = x.call ∧
        x'.report = x.report ∧ (run words' s').exit = (run words s).exit := by
  have hjson := (Invocation.ofWords_flags x.invoked).1
  refine ⟨?reported, x.report_eq_none_iff, x.run_eq_brokenOff, ?struck, ?other⟩
  case reported =>
    intro r hreport
    refine ⟨?_, ?_, ?_⟩
    · rw [x.exit_run, hreport]
      rfl
    · intro hword
      exact x.output_run_json hreport (hjson.mpr hword)
    · intro hword
      have hfalse : x.invocation.json = false := Bool.eq_false_iff.mpr fun h => hword (hjson.mp h)
      exact x.output_run hreport hfalse
  case struck =>
    intro words' i' hstruck hinvoked
    exact Invocation.asksFor_eq_of_strikeModes_eq hstruck x.invoked hinvoked
  case other =>
    intro words' s' i' loaded' hinvoked hcommand hconfigured hratio hsame
    obtain ⟨x', hinvocation, hloaded, hcall, hreport⟩ :=
      x.exists_of_findsSame hinvoked hcommand hconfigured hratio hsame
    refine ⟨x', hinvocation, hloaded, hcall, hreport, ?_⟩
    rw [x'.exit_run, x.exit_run, hreport]

/-- A report for a machine, and the same comparison for a reader and two build servers. -/
theorem run_reported_mismatch :
    let files : Files := ⟨[(["clear.expected"], .file (.raw (bytesOfText "red\n")))], []⟩
    let machine : Surroundings := ⟨files, .ok (bytesOfText "blue\n"), none, false⟩
    let actions : Surroundings := ⟨files, .ok (bytesOfText "blue\n"), none, true⟩
    let words := ["--json", "text", "--name", "clear", "/clear.prx"]
    let words' := ["text", "--teamcity", "--name", "clear", "-v", "/clear.prx"]
    ∃ (x : Comparing words machine) (x' : Comparing words' actions) (r : Report),
      x.report = some r ∧ r.passed = false ∧ x'.report = x.report ∧
      strikeModes words' = strikeModes words ∧
      x.invocation.command.FindsSame machine actions ∧
      "--json" ∈ optionWords words ∧ (run words machine).output = r.toText ++ "\n" ∧
      "--json" ∉ optionWords words' ∧
      (run words' actions).output = annotationsText x'.settings.annotators r
        ++ x'.call.printedText x'.settings files r ∧
      x'.settings.annotators = [.teamCity, .gitHub] ∧ x'.settings.verbose = true ∧
      (run words machine).exit = 1 ∧ (run words' actions).exit = 1 := by
  intro files machine actions words words'
  let command : Command := .text ⟨"/clear.prx"⟩ ⟨"-"⟩ none (some "clear")
  let i : Invocation := ⟨none, false, false, true, command⟩
  let i' : Invocation := ⟨none, true, true, false, command⟩
  have hinvoked : Invocation.ofWords words none = .ok i := by cbv
  have hinvoked' : Invocation.ofWords words' none = .ok i' := by cbv
  have hcaptured : machine.capturedOutput ⟨"-"⟩ = .ok "blue\n" := by
    have hstandard : isStandardInput ⟨"-"⟩ = true := by decide +kernel
    unfold Surroundings.capturedOutput
    rw [if_pos hstandard]
    exact congrArg Except.ok (textOfBytes_bytesOfText "blue\n")
  let x : Comparing words machine := ⟨i, .default, _, hinvoked, rfl, .text hcaptured⟩
  have hreported : x.report.map (·.passed) = some false := by
    show (Verifier.answer (.ofConfig (i.merged machine .default)) files .attentive
      (.output "clear" (BootFile.expectation ⟨"/clear.prx"⟩) "blue\n")).report.map (·.passed)
        = some false
    decide +kernel
  obtain ⟨r, hreport, hfailed⟩ := Option.map_eq_some_iff.mp hreported
  have hsame : command.FindsSame machine actions := by
    refine ⟨?_, rfl⟩
    split <;> rfl
  -- the theorem for the run for a machine gives the other run, and is then applied to that one
  obtain ⟨htold, -, -, -, hother⟩ := x.run_reported
  obtain ⟨hexit, hjson, -⟩ := htold r hreport
  obtain ⟨x', hi', hloaded', -, hreport', hexit'⟩ :=
    hother words' actions i' .default hinvoked' rfl rfl rfl hsame
  have hone : (run words machine).exit = 1 := by
    rw [hexit, hfailed]
    rfl
  have hword : "--json" ∈ optionWords words := by decide
  have hword' : "--json" ∉ optionWords words' := by decide
  refine ⟨x, x', r, hreport, hfailed, hreport', by decide, hsame, hword, hjson hword, hword',
    (x'.run_reported.1 r (hreport'.trans hreport)).2.2 hword', ?_, ?_, hone, hexit'.trans hone⟩
  · rw [x'.annotators_settings, hi', hloaded']
    rfl
  · rw [x'.verbose_settings, hi', hloaded']
    rfl

/-- **A view of all that a header can say.**  One pixel is to be compared in a view whose stride and
height are the greatest there are.  The run comes to its comparison, its configuration is valid and
its inputs are there, and it ends neither with 0 nor with 1 and without a report. -/
theorem run_reported_overrun :
    let files : Files := ⟨[(["one.raw"], .file (.raw [0, 0, 0, 0]))], []⟩
    let s : Surroundings := ⟨files, .ok [], none, false⟩
    let words := ["screenshot", "/clear.prx", "--capture", "/one.raw", "--capture-stride", "1",
      "--capture-height", "1", "--stride", "4294967295", "--height", "4294967295"]
    ∃ x : Comparing words s, x.report = none ∧ (run words s).exit = 101 ∧
      (run words s).output = "" := by
  intro files s words
  let source : CaptureSource :=
    ⟨⟨"/one.raw"⟩, .rgba8888, 1, none, 1, false, 4294967295, 480, 4294967295⟩
  let command : Command := .screenshot ⟨"/clear.prx"⟩ source none none none none
  let i : Invocation := ⟨none, false, false, false, command⟩
  have hinvoked : Invocation.ofWords words none = .ok i := by cbv
  let capture : Capture := ⟨1, 1, 1, PixelFormat.rgba8888.tag, .topDown, #[0, 0, 0, 0]⟩
  have hread : files.read ⟨"/one.raw"⟩ = .ok [0, 0, 0, 0] := by decide +kernel
  have hload : source.load files = .ok capture := by
    unfold CaptureSource.load
    rw [hread]
    rfl
  have hcheck : (command.settings (i.merged s .default)).check = .ok () := by
    unfold Config.check
    exact if_pos (by decide +kernel)
  let x : Comparing words s := ⟨i, .default, _, hinvoked, rfl, .screenshot hcheck hload⟩
  have hlong : x.report = none := by
    refine x.report_eq_none_iff.mpr ⟨⟨.rgba8888, ?_⟩, ?_⟩
    · show capture.Complete .rgba8888
      decide
    · show vectorLimit < 4 * ((4294967295 : UInt32).toNat * (4294967295 : UInt32).toNat)
      decide
  have hrun := x.run_eq_brokenOff hlong
  exact ⟨x, hlong, congrArg Ending.exit hrun, congrArg Ending.output hrun⟩

end Comparing

end Golden.CommandLine
