import Golden.Proofs.Line.Account

/-!
# Golden.Proofs.Line.Progress — an alignment ends, and ends with nothing left

An alignment goes through two loops, one turn at a time: the first as long as something is expected,
the second as long as something is left of the actual side.  `Runs` is the relation of the readers
it starts from, the turns it takes and the readers it ends with; a derivation of it is a finite run,
in which either loop stopped because its reader had nothing left (`runs_ofReaders`).

Every turn takes at least one line that was really there (`Turn.Consumes`): what both readers have
left afterwards are ends of what they had before, and one of the two is shorter.  It records no more
lines than it takes.  Both follow from what a step of an alignment takes (`Edit.Takes`), and by
induction on the run they bound its length and its diagnostics by the lines there were at the start
(`Runs.length_turns_le`).

The second loop never looks at the expected side again.  It need not: a reader that denies having
lines has an ended source and blank lines in view, and nothing a turn does to it brings others
(`Turn.hasLines_drain`).
-/

namespace Golden

/-! ## What a step costs -/

namespace Edit

variable {edit : Edit} {expected actual expected' actual' : List String}

/-- What a step leaves of either side is an end of it. -/
theorem Takes.suffix (h : Takes edit expected actual expected' actual') :
    expected' <:+ expected ∧ actual' <:+ actual := by
  cases h with
  | keep | substitute => exact ⟨List.suffix_cons _ _, List.suffix_cons _ _⟩
  | keepExpected | remove => exact ⟨List.suffix_cons _ _, List.suffix_refl _⟩
  | keepActual | add => exact ⟨List.suffix_refl _, List.suffix_cons _ _⟩

/-- A step takes a line, and at least as many as it records. -/
theorem Takes.length_le (h : Takes edit expected actual expected' actual') :
    expected'.length + actual'.length + max 1 edit.diagnostics.length
      ≤ expected.length + actual.length := by
  cases h with
  | keep | keepExpected | keepActual | add | remove | substitute =>
      simp only [diagnostics, List.length_cons, List.length_nil]
      omega

theorem Takes.length_lt (h : Takes edit expected actual expected' actual') :
    expected'.length + actual'.length < expected.length + actual.length := by
  have hlength := h.length_le
  omega

end Edit

/-! ## A reader that has nothing left -/

namespace Reader

variable {r : Reader}

theorem hasLines_eq_false_iff :
    r.hasLines = false ↔ r.source.lines = [] ∧ ∀ line ∈ r.window, line = "" := by
  have hsource : r.source.hasMore = false ↔ r.source.lines = [] := by
    rw [← Bool.not_eq_true, Source.hasMore_iff, Ne, Decidable.not_not]
  simp [hasLines, hsource]

theorem hasLines_fill (h : r.hasLines = false) : r.fill.value.hasLines = false := by
  rw [hasLines_eq_false_iff] at h ⊢
  obtain ⟨hsource, hwindow⟩ := h
  constructor
  · rw [lines_source_fill, hsource, List.drop_nil]
  · rw [window_fill, hsource, List.take_nil, List.append_nil]
    exact hwindow

theorem hasLines_prepare (h : r.hasLines = false) (pos : Nat) :
    (r.prepare pos).value.hasLines = false := by
  unfold prepare
  split
  · exact hasLines_fill h
  · exact h

theorem hasLines_skip (h : r.hasLines = false) (count : Nat) :
    (r.skip count).value.hasLines = false := by
  apply hasLines_fill
  rw [hasLines_eq_false_iff] at h ⊢
  exact ⟨h.1, fun line hline => h.2 line (List.mem_of_mem_drop hline)⟩

end Reader

/-! ## One turn -/

namespace Turn

/-- Both readers after a turn. -/
def readers (t : Turn) : Reader × Reader := (t.expected, t.actual)

/-- Going from one pair of readers to another takes lines off the front of what they have left, and
at least one line off one of them. -/
structure Consumes (before after : Reader × Reader) : Prop where
  expected : after.1.remaining <:+ before.1.remaining
  actual : after.2.remaining <:+ before.2.remaining
  length_lt : after.1.remaining.length + after.2.remaining.length
    < before.1.remaining.length + before.2.remaining.length

theorem consumes_of_takes {t : Turn} {e a : Reader}
    (h : t.edit.Takes e.remaining a.remaining t.expected.remaining t.actual.remaining) :
    Consumes (e, a) t.readers where
  expected := h.suffix.1
  actual := h.suffix.2
  length_lt := h.length_lt

/-- A turn of the second loop brings no lines back to the expected side. -/
theorem hasLines_drain {e : Reader} (a : Reader) (h : e.hasLines = false) :
    (drain e a).value.expected.hasLines = false := by
  have hprepared := Reader.hasLines_prepare h 0
  simp only [drain, Reader.takeShared, Traced.value_bind]
  by_cases heq : (a.prepare 0).value.line 0 = (e.prepare 0).value.line 0
  · rw [if_pos heq]
    exact Reader.hasLines_skip hprepared 1
  · rw [if_neg heq]
    exact hprepared

end Turn

/-! ## All turns -/

/-- The turns of an alignment, from the two readers it starts with to the two it ends with. -/
inductive Runs : Reader → Reader → List Turn → Reader → Reader → Prop
  | done {e a : Reader} (he : e.hasLines = false) (ha : a.hasLines = false) : Runs e a [] e a
  | next {e a e' a' : Reader} {turns : List Turn} (he : e.hasLines = true)
      (hrest : Runs (Turn.next e a).value.expected (Turn.next e a).value.actual turns e' a') :
      Runs e a ((Turn.next e a).value :: turns) e' a'
  | drain {e a e' a' : Reader} {turns : List Turn} (he : e.hasLines = false)
      (ha : a.hasLines = true)
      (hrest : Runs (Turn.drain e a).value.expected (Turn.drain e a).value.actual turns e' a') :
      Runs e a ((Turn.drain e a).value :: turns) e' a'

namespace Runs

variable {e a e' a' : Reader} {turns : List Turn}

/-- **What a run ends with**: two readers with nothing left. -/
theorem hasLines_eq_false (h : Runs e a turns e' a') :
    e'.hasLines = false ∧ a'.hasLines = false := by
  induction h with
  | done he ha => exact ⟨he, ha⟩
  | next _ _ ih | drain _ _ _ ih => exact ih

/-- **Every turn of a run takes a line.** -/
theorem isChain_consumes (h : Runs e a turns e' a') :
    List.IsChain Turn.Consumes ((e, a) :: turns.map Turn.readers) := by
  induction h with
  | done => exact .singleton _
  | next he _ ih =>
      exact List.isChain_cons_cons.mpr ⟨Turn.consumes_of_takes (Turn.next_takes he), ih⟩
  | drain _ ha _ ih =>
      exact List.isChain_cons_cons.mpr ⟨Turn.consumes_of_takes (Turn.drain_takes ha), ih⟩

/-- A run has no more turns than there are lines at its start, and records no more. -/
theorem length_turns_le (h : Runs e a turns e' a') :
    turns.length ≤ e.remaining.length + a.remaining.length ∧
      ((turns.map Turn.edit).flatMap Edit.diagnostics).length
        ≤ e.remaining.length + a.remaining.length := by
  induction h with
  | done => exact ⟨Nat.zero_le _, Nat.zero_le _⟩
  | @next e a _ _ _ he _ ih =>
      have htakes := (Turn.next_takes (a := a) he).length_le
      rw [List.length_cons, List.map_cons, List.flatMap_cons, List.length_append]
      omega
  | @drain e a _ _ _ _ ha _ ih =>
      have htakes := (Turn.drain_takes (e := e) ha).length_le
      rw [List.length_cons, List.map_cons, List.flatMap_cons, List.length_append]
      omega

end Runs

namespace Alignment

theorem runs_ofActual {e : Reader} (a : Reader) (he : e.hasLines = false) :
    ∃ turns, Runs e a turns (ofActual e a).value.expected (ofActual e a).value.actual ∧
      (ofActual e a).value.edits = turns.map Turn.edit := by
  fun_induction ofActual e a with
  | case1 e a ha t _ ih =>
      -- the expected side still has nothing left, so the rest is a run of the second loop
      obtain ⟨turns, hrest, hedits⟩ := ih (Turn.hasLines_drain a he)
      exact ⟨t.value :: turns, .drain he ha hrest, congrArg (t.value.edit :: ·) hedits⟩
  | case2 e a ha => exact ⟨[], .done he (Bool.eq_false_iff.mpr ha), rfl⟩

/-- **An alignment is a run**, and its steps are those of the turns. -/
theorem runs_ofReaders (e a : Reader) :
    ∃ turns, Runs e a turns (ofReaders e a).value.expected (ofReaders e a).value.actual ∧
      (ofReaders e a).value.edits = turns.map Turn.edit := by
  fun_induction ofReaders e a with
  | case1 e a he t _ ih =>
      obtain ⟨turns, hrest, hedits⟩ := ih
      exact ⟨t.value :: turns, .next he hrest, congrArg (t.value.edit :: ·) hedits⟩
  | case2 e a he => exact runs_ofActual a (Bool.eq_false_iff.mpr he)

/-- **An alignment ends, and ends with nothing left.**  From any two readers there is a finite run
whose steps are those of the alignment.  Every turn of it takes at least one line that one of the
readers had left; so there are at most as many turns as lines, and at most as many diagnostics; and
at the end neither reader has anything left. -/
theorem run_ends_drained (expected actual : Reader) :
    ∃ turns : List Turn,
      Runs expected actual turns (run expected actual).value.expected
        (run expected actual).value.actual ∧
      (run expected actual).value.edits = turns.map Turn.edit ∧
      List.IsChain Turn.Consumes ((expected, actual) :: turns.map Turn.readers) ∧
      turns.length ≤ expected.remaining.length + actual.remaining.length ∧
      (run expected actual).value.diagnostics.length
        ≤ expected.remaining.length + actual.remaining.length ∧
      (run expected actual).value.expected.hasLines = false ∧
      (run expected actual).value.actual.hasLines = false := by
  rw [value_run]
  obtain ⟨turns, hruns, hedits⟩ := runs_ofReaders expected actual
  obtain ⟨hturns, hdiagnostics⟩ := hruns.length_turns_le
  rw [← hedits] at hdiagnostics
  exact ⟨turns, hruns, hedits, hruns.isChain_consumes, hturns, hdiagnostics,
    hruns.hasLines_eq_false⟩

end Alignment

end Golden
