import Golden.Proofs.Comparison.Told
import Golden.Proofs.Line.Failures
import Golden.Proofs.Line.Verdict

/-!
# Golden.Proofs.Comparison.Expectation — what was read of an expectation that was met

A comparison passes exactly when the expectation could be opened and what arrived of it agrees with
the output, up to blank lines at the end.  An expectation that cannot be opened is never met.

What arrived is what came before the first failed read.  The report does not say whether there was
one: a directory opens and then fails at once, which makes it an expectation of nothing
(`Verifier.passed_compareOutput_iff`), and blank output meets it
(`Verifier.passed_against_directory`).  The log does say so.  It is told of every failed read
(`Verifier.readStopped_mem_iff`), whatever else it is told of writes that were refused, and **a
comparison that passes without a word about a failed read has read all there was**
(`Verifier.passed_compareOpened`).
-/

namespace Golden

namespace Delivery

/-- All bytes that reads bring, before and after a failure. -/
def whole (feed : List Delivery) : List UInt8 :=
  feed.flatMap fun
    | .bytes content => content
    | .interrupted | .failure _ => []

/-- Without a failure everything arrives. -/
theorem arriving_eq_whole {feed : List Delivery} (h : failure? feed = none) :
    arriving feed = whole feed := by
  induction feed with
  | nil => rfl
  | cons delivery rest ih =>
      cases delivery with
      | bytes content => exact congrArg (content ++ ·) (ih h)
      | interrupted => exact ih h
      | failure cause => cases h

end Delivery

/-! ## What the log is told -/

/-- Of an event for the build servers the log is told the lines that were refused. -/
theorem Annotator.exists_of_mem_annotateAll {annotators : List Annotator} {sink : Sink}
    {test : String} {event : Event} {notice : Notice}
    (h : notice ∈ (annotateAll annotators sink test event).events) :
    ∃ channel cause, notice = .writingFailed channel cause := by
  induction annotators generalizing sink with
  | nil => cases h
  | cons a rest ih =>
      rw [annotateAll, Traced.events_bind, List.mem_append] at h
      rcases h with hfirst | hrest
      · obtain ⟨cause, -, rfl⟩ := List.mem_map.mp hfirst
        exact ⟨a.channel, cause, rfl⟩
      · exact ih hrest

namespace Audience

variable {annotators : List Annotator} {test : String} {notice : Notice}

/-- What is told to the log on one telling: the notice itself, or writes that were refused. -/
theorem mem_events_hear (hnotice : ∀ channel cause, notice ≠ .writingFailed channel cause)
    (a : Audience) (telling : Telling) :
    notice ∈ (a.hear annotators test telling).events ↔ telling = .note notice := by
  cases telling with
  | note other => simp [hear, eq_comm]
  | announce event =>
      simp only [hear, announce, Traced.events_bind, Traced.events_pure, List.append_nil,
        reduceCtorEq, iff_false]
      intro hmem
      obtain ⟨channel, cause, heq⟩ := Annotator.exists_of_mem_annotateAll hmem
      exact hnotice channel cause heq
  | print channel texts =>
      simp only [hear, print, reduceCtorEq, iff_false]
      intro hmem
      obtain ⟨cause, -, heq⟩ := List.mem_map.mp hmem
      exact hnotice channel cause heq.symm

/-- **Apart from writes that were refused the log is told the notices**, and no others. -/
theorem mem_events_hearAll (hnotice : ∀ channel cause, notice ≠ .writingFailed channel cause)
    (a : Audience) (tellings : List Telling) :
    notice ∈ (a.hearAll annotators test tellings).events ↔ .note notice ∈ tellings := by
  induction tellings generalizing a with
  | nil => exact iff_of_false List.not_mem_nil List.not_mem_nil
  | cons telling rest ih =>
      rw [hearAll, Traced.events_bind, List.mem_append, mem_events_hear hnotice, ih,
        List.mem_cons, eq_comm]

end Audience

/-! ## What was read -/

/-- Two texts with the same lines up to blank ones at the end. -/
def AgreeingTexts (text other : String) : Prop :=
  withoutTrailingBlanks (Source.ofText text).lines
    = withoutTrailingBlanks (Source.ofText other).lines

namespace Comparison

variable (verbose : Bool) (fs : Files) (test : String) (expectation : Path) (output : String)
  (opened : Except Cause (List Delivery))

theorem passed_ofOpened_iff :
    (ofOpened verbose fs test expectation output opened).report.passed = true ↔
      ∃ feed, opened = .ok feed ∧ AgreeingTexts (textOfBytes (Delivery.arriving feed)) output := by
  cases opened with
  | error cause => simp [ofOpened, expectationMissing, Report.failed]
  | ok feed =>
      have hmatch := Alignment.isMatch_ofReaders_iff (.ofDeliveries feed) (.ofText output)
      rw [← Alignment.value_run, Reader.ofDeliveries, Reader.ofText, Reader.remaining_ofSource,
        Reader.remaining_ofSource, Source.lines_ofDeliveries] at hmatch
      constructor
      · intro h
        exact ⟨feed, rfl, hmatch.mp h⟩
      · rintro ⟨_, ⟨⟩, hagree⟩
        exact hmatch.mpr hagree

/-- What is told of a comparison besides the events of its alignment names no failed read. -/
theorem readStopped_mem_tellings_iff (feed : List Delivery) (cause : Cause) :
    .note (.readStopped cause)
        ∈ (ofOpened verbose fs test expectation output (.ok feed)).tellings ↔
      .readFailed cause ∈ (Alignment.run (.ofDeliveries feed) (.ofText output)).events := by
  have htelling : ∀ event : LineEvent,
      event.telling = .note (.readStopped cause) ↔ event = .readFailed cause := by
    intro event
    cases event <;> simp [LineEvent.telling]
  have hnotice : ∀ report : Report, report.outputNotice expectation ≠ .readStopped cause := by
    intro report
    unfold Report.outputNotice
    split <;> simp
  cases verbose <;> simp [ofOpened, htelling, (hnotice _).symm]

theorem readStopped_mem_ofOpened_iff (cause : Cause) :
    .note (.readStopped cause) ∈ (ofOpened verbose fs test expectation output opened).tellings ↔
      ∃ feed, opened = .ok feed ∧ Delivery.failure? feed = some cause := by
  cases opened with
  | error cause => simp [ofOpened, expectationMissing]
  | ok feed =>
      have hcount := Alignment.count_readFailed_run (.ofDeliveries feed) (.ofText output) cause
      have howed : (Reader.ofText output).owed cause = 0 := rfl
      rw [howed, Nat.add_zero] at hcount
      rw [readStopped_mem_tellings_iff, ← List.count_pos_iff, hcount]
      show 0 < (Delivery.failure? feed).toList.count cause ↔ _
      rw [List.count_pos_iff, Option.mem_toList]
      simp

end Comparison

namespace Verifier

variable (v : Verifier) (fs : Files) (audience : Audience) (test : String) (expectation : Path)
  (output : String) (opened : Except Cause (List Delivery))

/-- **The log hears of every failed read**, and of no other. -/
theorem readStopped_mem_iff (cause : Cause) :
    .readStopped cause
        ∈ (v.compareOpened fs audience test expectation output opened).events ↔
      ∃ feed, opened = .ok feed ∧ Delivery.failure? feed = some cause := by
  have hnotice : ∀ channel other, Notice.readStopped cause ≠ .writingFailed channel other :=
    fun _ _ => nofun
  rw [compareOpened_eq_tell, tell, Traced.events_bind, Traced.events_pure, List.append_nil,
    Audience.mem_events_hearAll hnotice, Comparison.readStopped_mem_ofOpened_iff]

/-- **What a comparison that passes has read.**  Whatever opening the expectation gave, the
comparison comes to a report, and passes exactly when reads came of it and what arrived before the
first failed one agrees with the output.  The log hears of a failed read exactly when there is one.
So if it hears of none, a comparison that passes has read all there was. -/
theorem passed_compareOpened (v : Verifier) (fs : Files) (audience : Audience) (test : String)
    (expectation : Path) (output : String) (opened : Except Cause (List Delivery)) :
    let told := v.compareOpened fs audience test expectation output opened
    ∃ report, told.value.report = some report ∧
      (report.passed = true ↔
        ∃ feed, opened = .ok feed ∧ AgreeingTexts (textOfBytes (Delivery.arriving feed)) output) ∧
      (∀ cause, .readStopped cause ∈ told.events ↔
        ∃ feed, opened = .ok feed ∧ Delivery.failure? feed = some cause) ∧
      (report.passed = true → (∀ cause, .readStopped cause ∉ told.events) →
        ∃ feed, opened = .ok feed ∧ Delivery.failure? feed = none ∧
          AgreeingTexts (textOfBytes (Delivery.whole feed)) output) := by
  intro told
  have hpassed := Comparison.passed_ofOpened_iff v.config.verbose fs test expectation output opened
  have hlog := v.readStopped_mem_iff fs audience test expectation output opened
  have htold : told = v.tell audience
      (.ofOpened v.config.verbose fs test expectation output opened) :=
    v.compareOpened_eq_tell fs audience test expectation output opened
  refine ⟨_, congrArg (·.value.report) htold, hpassed, hlog, ?_⟩
  intro hpass hsilent
  obtain ⟨feed, hopened, hagree⟩ := hpassed.mp hpass
  -- a failed read would have been told
  have hread : Delivery.failure? feed = none := by
    cases hfailure : Delivery.failure? feed with
    | none => rfl
    | some cause => exact absurd ((hlog cause).mpr ⟨feed, hopened, hfailure⟩) (hsilent cause)
  rw [Delivery.arriving_eq_whole hread] at hagree
  exact ⟨feed, hopened, hread, hagree⟩

/-- In the visible files only a directory has a read that fails, and nothing arrives before it. -/
theorem passed_compareOutput_iff :
    (v.compareOutput fs audience test expectation output).value.report.map (·.passed) = some true ↔
      ∃ place entry, fs.resolve expectation = .ok (place, entry) ∧
        match entry with
        | .file content => AgreeingTexts (textOfBytes content.bytes) output
        | .directory => AgreeingTexts "" output := by
  rw [compareOutput, compareOpened_eq_tell]
  show some (Comparison.ofOpened _ fs test expectation output _).report.passed = some true ↔ _
  rw [Option.some_inj, Comparison.passed_ofOpened_iff, Files.deliveries]
  cases fs.resolve expectation with
  | error cause => simp
  | ok found =>
      obtain ⟨place, entry⟩ := found
      cases entry with
      | file content =>
          have hall : Delivery.arriving [.bytes content.bytes] = content.bytes :=
            List.append_nil content.bytes
          simp [Entry.deliveries, hall]
      | directory =>
          have hnothing : textOfBytes (Delivery.arriving [.failure .isADirectory]) = "" := rfl
          simp [Entry.deliveries, hnothing]

/-- Output that is empty meets a directory, and only the log is told that nothing was read. -/
theorem passed_against_directory :
    let fs : Files := ⟨[(["alu.expected"], .directory)], []⟩
    let v : Verifier := .ofConfig .default
    let told := v.compareOutput fs .attentive "cpu/alu" ⟨"alu.expected"⟩ ""
    fs.isDirectory ⟨"alu.expected"⟩ = true ∧
      told.value.report.map (fun report => (report.passed, report.error)) = some (true, none) ∧
      told.value.audience.heard = [] ∧ .readStopped .isADirectory ∈ told.events := by
  intro fs v told
  have hopened : fs.deliveries ⟨"alu.expected"⟩ = .ok [.failure .isADirectory] := by
    decide +kernel
  refine ⟨by decide +kernel, by decide +kernel, List.isEmpty_iff.mp (by decide +kernel), ?_⟩
  exact (v.readStopped_mem_iff fs .attentive _ _ _ _ _).mpr ⟨_, hopened, rfl⟩

end Verifier

end Golden
