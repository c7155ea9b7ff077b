import Golden.CommandLine.Invocation
import Golden.Proofs.Files.Written

/-!
# Golden.Proofs.CommandLine.Readings — the words of a command line, one by one

Words are read in two loops, which differ in what they make of an operand: in front of a command it
ends the reading, behind it is taken in.  `Reading` puts both as one relation between what was given
before and after, with one rule for each way in which a word can be read.  **It holds exactly where
a loop succeeds** (`reading_of_readLeading` and `reading_of_readAll`, `Reading.readLeading_eq` and
`Reading.readAll_eq`), so whatever is to be shown of both loops is shown by one induction on it.

A command line makes an invocation if there is a reading in front of its command and another one
behind it (`Invocation.ofWords_eq_ok_iff`).
-/

namespace Golden.CommandLine

variable {specs : List OptionSpec} {leading : Bool}

/-! ## What one option adds -/

namespace Given

variable {g h : Given}

/-- The value that a text gives an option. -/
def valueOf? (spec : OptionSpec) (text : Option String) : Except Stop OptionValue :=
  match spec.role, text with
  | .version, none => .error .version
  | .help, none => .error .help
  | .flag, none => .ok .present
  | .value kind, some text =>
    match kind.read? text with
    | some value => .ok value
    | none => .error .misuse
  | _, _ => .error .misuse

/-- An option is added if it has a value and was not given before. -/
theorem addOption_eq_ok_iff {spec : OptionSpec} {text : Option String} :
    g.addOption spec text = .ok h ↔ ∃ value, valueOf? spec text = .ok value ∧
      g.options.lookup spec.name = none ∧
      h = { g with options := (spec.name, value) :: g.options } := by
  have hadd : g.addOption spec text = (valueOf? spec text).bind fun value =>
      match g.options.lookup spec.name with
      | some _ => .error .misuse
      | none => .ok { g with options := (spec.name, value) :: g.options } := by
    unfold Given.addOption valueOf?
    cases spec.role with
    | flag => cases text <;> rfl
    | version => cases text <;> rfl
    | help => cases text <;> rfl
    | value kind =>
        cases text with
        | none => rfl
        | some text =>
            dsimp only
            cases kind.read? text <;> rfl
  rw [hadd]
  cases valueOf? spec text with
  | error stop => simp [Except.bind]
  | ok value =>
      cases hgiven : g.options.lookup spec.name with
      | some other => simp [Except.bind]
      | none => simp [Except.bind, eq_comm]

/-- What is given in addition is given, and all else as it was. -/
theorem flag_addOption {spec : OptionSpec} {text : Option String} (name : String)
    (hadd : g.addOption spec text = .ok h) :
    h.flag name = true ↔ spec.name = name ∨ g.flag name = true := by
  obtain ⟨value, -, -, rfl⟩ := addOption_eq_ok_iff.mp hadd
  rw [flag, flag, List.lookup_cons]
  split
  · rename_i heq
    simp [(beq_iff_eq.mp heq).symm]
  · rename_i hne
    rw [beq_eq_false_iff_ne] at hne
    simp [hne.symm]

theorem flag_addOperand {text : String} (name : String) (hadd : g.addOperand text = .ok h) :
    h.flag name = g.flag name := by
  unfold addOperand at hadd
  split at hadd
  · cases hadd
    rfl
  · cases hadd

theorem flag_addOperands {texts : List String} (name : String)
    (hadd : texts.foldlM addOperand g = .ok h) : h.flag name = g.flag name := by
  induction texts generalizing g with
  | nil =>
      cases hadd
      rfl
  | cons text texts ih =>
      rw [List.foldlM_cons] at hadd
      obtain ⟨g₁, hfirst, hadd⟩ := exists_of_bind_eq_ok hadd
      rw [ih hadd, flag_addOperand name hfirst]

end Given

/-! ## Readings -/

/-- A reading of words, with what was given before it and after it, and the words left.  In front of
a command (`leading`) the first operand ends it. -/
inductive Reading (specs : List OptionSpec) (leading : Bool) :
    Given → List String → Given → List String → Prop
  | done {g : Given} : Reading specs leading g [] g []
  | stop {g : Given} {text operand : String} {rest : List String} :
      leading = true → Word.ofText text = .operand operand →
      Reading specs leading g (text :: rest) g (text :: rest)
  | operand {g g₁ h : Given} {text operand : String} {rest later : List String} :
      leading = false → Word.ofText text = .operand operand → g.addOperand operand = .ok g₁ →
      Reading specs leading g₁ rest h later → Reading specs leading g (text :: rest) h later
  | operands {g h : Given} {text : String} {rest : List String} :
      leading = false → Word.ofText text = .endOfOptions → rest.foldlM Given.addOperand g = .ok h →
      Reading specs leading g (text :: rest) h []
  | option {g g₁ h : Given} {text : String} {rest later : List String} :
      readOption specs g (Word.ofText text) = .ok (g₁, none) →
      Reading specs leading g₁ rest h later → Reading specs leading g (text :: rest) h later
  | valued {g g₁ g₂ h : Given} {text value operand : String} {spec : OptionSpec}
      {rest later : List String} :
      readOption specs g (Word.ofText text) = .ok (g₁, some spec) →
      Word.ofText value = .operand operand → g₁.addOption spec (some operand) = .ok g₂ →
      Reading specs leading g₂ rest h later →
      Reading specs leading g (text :: value :: rest) h later

theorem reading_of_readLeading : ∀ {words : List String} {g h : Given} {later : List String},
    readLeading specs g words = .ok (h, later) → Reading specs true g words h later
  | [], g, h, later, hread => by
      cases hread
      exact .done
  | text :: rest, g, h, later, hread => by
      rw [readLeading] at hread
      split at hread
      · rename_i hword
        cases hread
        exact .stop rfl hword
      · obtain ⟨⟨g₁, waiting⟩, hoption, hread⟩ := exists_of_bind_eq_ok hread
        cases waiting with
        | none => exact .option hoption (reading_of_readLeading hread)
        | some spec =>
            cases rest with
            | nil => cases hread
            | cons value rest =>
                dsimp only at hread
                split at hread
                · rename_i hvalue
                  obtain ⟨g₂, hgiven, hread⟩ := exists_of_bind_eq_ok hread
                  exact .valued hoption hvalue hgiven (reading_of_readLeading hread)
                · cases hread

theorem reading_of_readAll : ∀ {words : List String} {g h : Given},
    readAll specs g words = .ok h → Reading specs false g words h []
  | [], g, h, hread => by
      cases hread
      exact .done
  | text :: rest, g, h, hread => by
      rw [readAll] at hread
      split at hread
      · rename_i hword
        exact .operands rfl hword hread
      · rename_i hword
        obtain ⟨g₁, hgiven, hread⟩ := exists_of_bind_eq_ok hread
        exact .operand rfl hword hgiven (reading_of_readAll hread)
      · obtain ⟨⟨g₁, waiting⟩, hoption, hread⟩ := exists_of_bind_eq_ok hread
        cases waiting with
        | none => exact .option hoption (reading_of_readAll hread)
        | some spec =>
            cases rest with
            | nil => cases hread
            | cons value rest =>
                dsimp only at hread
                split at hread
                · rename_i hvalue
                  obtain ⟨g₂, hgiven, hread⟩ := exists_of_bind_eq_ok hread
                  exact .valued hoption hvalue hgiven (reading_of_readAll hread)
                · cases hread

/-- Only options are read as options. -/
theorem readOption_ok {g : Given} {word : Word} {read : Given × Option OptionSpec}
    (h : readOption specs g word = .ok read) :
    word ≠ .endOfOptions ∧ ∀ operand, word ≠ .operand operand := by
  cases word with
  | endOfOptions => cases h
  | operand text => cases h
  | named name value => exact ⟨Word.noConfusion, fun _ => Word.noConfusion⟩
  | bundle letters => exact ⟨Word.noConfusion, fun _ => Word.noConfusion⟩

theorem Reading.readLeading_eq {g h : Given} {words later : List String}
    (hread : Reading specs true g words h later) : readLeading specs g words = .ok (h, later) := by
  induction hread with
  | done => rfl
  | stop _ hword => rw [readLeading, hword]
  | operand hfalse => cases hfalse
  | operands hfalse => cases hfalse
  | option hoption _ ih =>
      rw [readLeading]
      split
      · rename_i hword
        exact absurd hword ((readOption_ok hoption).2 _)
      · rw [hoption]
        exact ih
  | valued hoption hvalue hgiven _ ih =>
      rw [readLeading]
      split
      · rename_i hword
        exact absurd hword ((readOption_ok hoption).2 _)
      · simp only [hoption, hvalue, hgiven, bind, Except.bind]
        exact ih

theorem Reading.readAll_eq {g h : Given} {words later : List String}
    (hread : Reading specs false g words h later) : readAll specs g words = .ok h := by
  induction hread with
  | done => rfl
  | stop hfalse => cases hfalse
  | operand _ hword hgiven _ ih =>
      rw [readAll, hword]
      dsimp only
      rw [hgiven]
      exact ih
  | operands _ hword hgiven =>
      rw [readAll, hword]
      exact hgiven
  | option hoption _ ih =>
      rw [readAll]
      split
      · rename_i hword
        exact absurd hword (readOption_ok hoption).1
      · rename_i hword
        exact absurd hword ((readOption_ok hoption).2 _)
      · rw [hoption]
        exact ih
  | valued hoption hvalue hgiven _ ih =>
      rw [readAll]
      split
      · rename_i hword
        exact absurd hword (readOption_ok hoption).1
      · rename_i hword
        exact absurd hword ((readOption_ok hoption).2 _)
      · simp only [hoption, hvalue, hgiven, bind, Except.bind]
        exact ih

/-! ## Invocations -/

theorem eq_ok_of_mapError {ε ε' α : Type} {f : ε → ε'} {x : Except ε α} {a : α}
    (h : x.mapError f = .ok a) : x = .ok a := by
  cases x with
  | error e => cases h
  | ok b =>
      cases h
      rfl

namespace Invocation

variable {words : List String} {fromEnvironment : Option String} {i : Invocation}

/-- The two readings of a command line that makes an invocation. -/
theorem ofWords_eq_ok_iff :
    ofWords words fromEnvironment = .ok i ↔
      ∃ front spec later behind, spec ∈ commands ∧
        Reading commonSpecs true .empty words front (spec.name :: later) ∧
        Reading (spec.specs ++ commonSpecs) false .empty later behind [] ∧
        ofGiven spec front behind fromEnvironment = .ok i := by
  unfold ofWords
  constructor
  · intro h
    obtain ⟨⟨front, rest⟩, hfront, h⟩ := exists_of_bind_eq_ok h
    have hread := reading_of_readLeading (eq_ok_of_mapError hfront)
    cases rest with
    | nil => cases h
    | cons name later =>
        dsimp only at h
        split at h
        · rename_i spec hfind
          obtain ⟨behind, hbehind, hmade⟩ := exists_of_bind_eq_ok h
          have hname : spec.name = name := by simpa using List.find?_some hfind
          rw [← hname] at hread
          exact ⟨front, spec, later, behind, List.mem_of_find?_eq_some hfind, hread,
            reading_of_readAll (eq_ok_of_mapError hbehind), hmade⟩
        · split at h <;> cases h
  · rintro ⟨front, spec, later, behind, hspec, hfront, hbehind, h⟩
    have hfind : commands.find? (·.name == spec.name) = some spec := by
      simp only [commands, List.mem_cons, List.not_mem_nil, or_false] at hspec
      rcases hspec with rfl | rfl | rfl <;> rfl
    have hleading : (readLeading commonSpecs .empty words).mapError (Refusal.ofStop none)
        = .ok (front, spec.name :: later) := by
      rw [hfront.readLeading_eq]
      rfl
    have hall : (readAll (spec.specs ++ commonSpecs) .empty later).mapError
        (Refusal.ofStop (some spec.name)) = .ok behind := by
      rw [hbehind.readAll_eq]
      rfl
    simp only [hleading, bind, Except.bind, hfind, hall]
    exact h

end Invocation

end Golden.CommandLine
