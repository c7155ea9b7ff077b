import Golden.Proofs.Annotation.ServiceMessage

/-!
# Golden.Proofs.Annotation.WorkflowCommand — how many commands an event puts

A build server takes every line that begins with two colons as a command (`commands`).  A workflow
command holds the name of a test twice and what an event brings along once (`reason`), all of it as
it is, so its newlines are theirs (`count_newline_body`).

**An event puts one command on one line exactly as long as none of these texts has a newline**
(`annotate_commands`).  With one in it, the text behind that newline is a line of its own.  If it
begins with two colons it is a command, and nothing tells it from one that was meant
(`mem_commands`, `commands_line_forged`).  Service messages do not have this gap: there a newline
is escaped like everything else that means something.
-/

namespace Golden.GitHub

/-! ## Commands in a text -/

/-- The commands in a text: its lines, without their newlines, as far as they begin with two
colons. -/
def commands (text : String) : List String :=
  ((text.toList.splitOn '\n').filter ("::".toList <+: ·)).map String.ofList

/-- Behind a newline the commands begin anew. -/
theorem commands_append (front back : String) :
    commands (front ++ "\n" ++ back) = commands front ++ commands back := by
  have hnewline : "\n".toList = ['\n'] := rfl
  rw [commands, String.toList_append, String.toList_append, hnewline, List.append_assoc,
    List.singleton_append, List.splitOn, List.splitOnP_append_cons _ _ (by rfl),
    List.filter_append, List.map_append]
  rfl

/-- A single line is a command or none. -/
theorem commands_of_notMem {text : String} (h : '\n' ∉ text.toList) :
    commands text = if "::".toList <+: text.toList then [text] else [] := by
  have hline : text.toList.splitOn '\n' = [text.toList] := List.splitOn_eq_singleton h
  rw [commands, hline]
  by_cases hcolons : "::".toList <+: text.toList
  · rw [if_pos hcolons, List.filter_cons_of_pos (by simpa using hcolons), List.filter_nil,
      List.map_singleton, String.ofList_toList]
  · rw [if_neg hcolons, List.filter_cons_of_neg (by simpa using hcolons)]
    rfl

/-- **What stands on a line of its own and begins with two colons is a command.** -/
theorem mem_commands {text : String} (hline : '\n' ∉ text.toList)
    (hcolons : "::".toList <+: text.toList) (front back : String) :
    text ∈ commands (front ++ "\n" ++ text ++ "\n" ++ back) := by
  rw [commands_append, commands_append, commands_of_notMem hline, if_pos hcolons]
  simp

/-! ## Workflow commands -/

/-- The text that an event brings along. -/
def reason : Event → String
  | .screenshotError message => message
  | _ => ""

/-- A workflow command behind its opening, without the newline. -/
def body (test : String) (event : Event) : String := test ++ "::" ++ message test event

theorem line_eq (test : String) (event : Event) :
    line test event = "::error file=" ++ body test event ++ "\n" := by
  unfold line body
  simp only [String.append_assoc]

theorem count_newline_message (test : String) (event : Event) :
    (message test event).toList.count '\n'
      = test.toList.count '\n' + (reason event).toList.count '\n' := by
  cases event with
  | outputMismatch =>
      unfold message reason
      simp
  | expectationMissing =>
      unfold message reason
      simp
  | screenshotMismatch ratio =>
      have hratio : '\n' ∉ (TeamCity.percentage ratio).toList := by
        intro hmem
        cases TeamCity.plain_percentage ratio '\n' hmem
      unfold message reason
      simp [List.count_eq_zero_of_not_mem hratio]
  | screenshotError text =>
      have hfront : "Screenshot comparison failed for ".toList.count '\n' = 0 := by decide
      have hcolon : ": ".toList.count '\n' = 0 := by decide
      unfold message reason
      simp only [String.toList_append, List.count_append]
      omega

/-- **The newlines of a command are those of the texts in it.** -/
theorem count_newline_body (test : String) (event : Event) :
    (body test event).toList.count '\n'
      = 2 * test.toList.count '\n' + (reason event).toList.count '\n' := by
  have hcolons : "::".toList.count '\n' = 0 := by decide
  rw [body, String.toList_append, String.toList_append, List.count_append, List.count_append,
    hcolons, count_newline_message]
  omega

theorem newline_notMem_body (test : String) (event : Event) :
    '\n' ∉ (body test event).toList ↔ '\n' ∉ test.toList ∧ '\n' ∉ (reason event).toList := by
  rw [← List.count_eq_zero, ← List.count_eq_zero, ← List.count_eq_zero, count_newline_body]
  omega

/-- Texts without newlines make one command. -/
theorem commands_line {test : String} {event : Event} (h : '\n' ∉ (body test event).toList) :
    commands (line test event) = ["::error file=" ++ body test event] := by
  have hopening : '\n' ∉ "::error file=".toList := by decide
  have hline : '\n' ∉ ("::error file=" ++ body test event).toList := by
    rw [String.toList_append, List.mem_append, not_or]
    exact ⟨hopening, h⟩
  have hcolons : "::".toList <+: ("::error file=" ++ body test event).toList := by
    rw [String.toList_append]
    exact ⟨"error file=".toList ++ (body test event).toList, rfl⟩
  have hnone : commands "" = [] := rfl
  rw [line_eq, ← String.append_empty (s := "::error file=" ++ body test event ++ "\n"),
    commands_append, commands_of_notMem hline, if_pos hcolons, hnone, List.append_nil]

/-- **How many commands an event puts.**  A sink that takes everything is given one text for an
event, which begins as a command and ends with a newline.  The other newlines in it are those of the
name of the test, twice, and those of the text that the event brings along.  So there is one line
exactly if both are free of newlines, and then it is the one command.  But a line inside either that
begins with two colons is a command as well, whatever it says. -/
theorem annotate_commands (test : String) (event : Event) :
    (∀ before, Annotator.gitHub.annotate (.holding before) test event
      = ⟨.holding (before ++ line test event), []⟩) ∧
    line test event = "::error file=" ++ body test event ++ "\n" ∧
    (body test event).toList.count '\n'
      = 2 * test.toList.count '\n' + (reason event).toList.count '\n' ∧
    ('\n' ∉ (body test event).toList ↔ '\n' ∉ test.toList ∧ '\n' ∉ (reason event).toList) ∧
    ('\n' ∉ (body test event).toList →
      commands (line test event) = ["::error file=" ++ body test event]) ∧
    ∀ forged : String, '\n' ∉ forged.toList → "::".toList <+: forged.toList →
      (∀ front back, forged ∈ commands (line (front ++ "\n" ++ forged ++ "\n" ++ back) event)) ∧
      ∀ front, forged ∈ commands (line test (.screenshotError (front ++ "\n" ++ forged))) := by
  refine ⟨fun before => Annotator.annotate_holding .gitHub before test event, line_eq test event,
    count_newline_body test event, newline_notMem_body test event, commands_line, ?_⟩
  intro forged hline hcolons
  constructor
  · intro front back
    have hmem := mem_commands hline hcolons ("::error file=" ++ front)
      (back ++ "::" ++ message (front ++ "\n" ++ forged ++ "\n" ++ back) event ++ "\n")
    rw [line_eq]
    unfold body
    simpa only [String.append_assoc] using hmem
  · intro front
    have hmem := mem_commands hline hcolons
      ("::error file=" ++ test ++ "::" ++ "Screenshot comparison failed for " ++ test ++ ": "
        ++ front) ""
    rw [line_eq]
    unfold body message
    simpa only [String.append_assoc, String.append_empty] using hmem

/-- A plain name alone makes one command, and a forged one stands beside that of an error. -/
theorem annotate_commands_plain :
    let forged := "::error file=fpu::forged"
    '\n' ∉ (body "cpu/alu" .outputMismatch).toList ∧ '\n' ∉ forged.toList ∧
      "::".toList <+: forged.toList ∧
      commands (line "cpu/alu" .outputMismatch)
        = ["::error file=cpu/alu::Incorrect output for cpu/alu"] ∧
      forged ∈ commands (line "cpu/alu" (.screenshotError ("broken" ++ "\n" ++ forged))) := by
  intro forged
  have htest : '\n' ∉ "cpu/alu".toList := by decide
  have hreason : '\n' ∉ (reason .outputMismatch).toList := by decide
  have hline : '\n' ∉ forged.toList := by decide +kernel
  have hcolons : "::".toList <+: forged.toList := by decide +kernel
  obtain ⟨-, -, -, hnewline, hcommands, hforged⟩ := annotate_commands "cpu/alu" .outputMismatch
  have hbody := hnewline.mpr ⟨htest, hreason⟩
  exact ⟨hbody, hline, hcolons, hcommands hbody, (hforged forged hline hcolons).2 "broken"⟩

/-- **Where a command is forged.**  The text of one error puts two commands on two lines. -/
theorem commands_line_forged :
    let event : Event := .screenshotError "broken\n::error file=fpu::forged"
    commands (line "cpu/alu" event)
        = ["::error file=cpu/alu::Screenshot comparison failed for cpu/alu: broken",
          "::error file=fpu::forged"] ∧
      ¬ ∃ body, line "cpu/alu" event = "::error file=" ++ body ++ "\n" ∧ '\n' ∉ body.toList := by
  intro event
  constructor
  · decide +kernel
  · rintro ⟨body, hline, hbody⟩
    have hcount : (line "cpu/alu" event).toList.count '\n' = 2 := by decide +kernel
    rw [hline, String.toList_append, String.toList_append, List.count_append, List.count_append,
      List.count_eq_zero_of_not_mem hbody] at hcount
    exact absurd hcount (by decide)

end Golden.GitHub
