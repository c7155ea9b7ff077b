import Golden.Line.Alignment

/-!
# Golden.Proofs.Line.Collected — an alignment apart from its listener

A listener is told of an alignment while it goes on and has no say in it.  So an alignment can be
looked at by itself, as the turns that it takes (`Turn.next`, `Turn.drain`) and the events that are
met on the way (`Alignment.ofReaders`).  Following one step and then another is following the two
together (`Listener.follow_bind`), so every turn in front of a listener is the turn by itself,
followed, and so is every run.

**What becomes of a listener is what becomes of it when it is told of the events one after the
other**, as if the alignment were over by then (`Alignment.runFor_eq`).  The record of an alignment
are the events themselves, without the mismatches behind the first (`Alignment.run_eq`).
-/

namespace Golden

/-! ## Following -/

namespace Listener

variable {ε σ α β : Type} (l : Listener ε σ) (h : Hearing σ)

/-- **Two steps are followed one after the other.** -/
theorem follow_bind (x : Traced LineEvent α) (f : α → Traced LineEvent β) :
    l.follow h (x >>= f) = l.follow h x >>= fun (a, h) => l.follow h (f a) := by
  simp only [follow, Traced.events_bind, List.foldlM_append, bind_assoc, pure_bind,
    Traced.value_bind]

theorem follow_report (event : LineEvent) :
    l.follow h (Traced.report event) = l.hear h event >>= fun h => pure ((), h) := by
  simp only [follow, Traced.events_report, List.foldlM_cons, List.foldlM_nil, bind_pure]

theorem events_follow (x : Traced LineEvent α) :
    (l.follow h x).events = (x.events.foldlM l.hear h).events :=
  List.append_nil _

/-- What a listener does when it is told of an event. -/
def attend (s : σ) : LineEvent → Traced ε σ
  | .readFailed cause => do
    Traced.report (l.readFailed cause)
    return s
  | .firstMismatch => l.firstMismatch s

end Listener

/-! ## Turns -/

namespace Turn

/-- One turn while something is still expected, by itself. -/
def next (expected actual : Reader) : Traced LineEvent Turn := do
  let (shared, expected, actual) ← expected.takeShared actual
  match shared with
  | some line => return ⟨.keep line, expected, actual⟩
  | none =>
    Traced.report .firstMismatch
    settle expected actual

/-- One turn once nothing is expected any more, by itself. -/
def drain (expected actual : Reader) : Traced LineEvent Turn := do
  let (shared, actual, expected) ← actual.takeShared expected
  match shared with
  | some line => return ⟨.keep line, expected, actual⟩
  | none =>
    Traced.report .firstMismatch
    let (line, actual) ← actual.consume
    return ⟨.add line, expected, actual⟩

variable {ε σ : Type} (l : Listener ε σ) (h : Hearing σ) (e a : Reader)

theorem nextFor_eq : nextFor l h e a = l.follow h (next e a) := by
  rw [nextFor, next, Listener.follow_bind]
  congr 1
  funext taken
  obtain ⟨⟨shared, expected, actual⟩, h⟩ := taken
  cases shared with
  | some line => rfl
  | none =>
      dsimp only
      rw [Listener.follow_bind, Listener.follow_report, bind_assoc]
      rfl

theorem drainFor_eq : drainFor l h e a = l.follow h (drain e a) := by
  rw [drainFor, drain, Listener.follow_bind]
  congr 1
  funext taken
  obtain ⟨⟨shared, actual, expected⟩, h⟩ := taken
  cases shared with
  | some line => rfl
  | none =>
      dsimp only
      rw [Listener.follow_bind, Listener.follow_report, bind_assoc]
      simp only [pure_bind, Listener.follow_bind]
      rfl

theorem left_next_lt {e a : Reader} (h : e.hasLines = true) :
    (next e a).value.left < e.left + a.left := by
  have hlt := left_nextFor_lt .recorder ⟨true, ()⟩ (a := a) h
  rw [nextFor_eq] at hlt
  exact hlt

theorem left_drain_lt {e a : Reader} (h : a.hasLines = true) :
    (drain e a).value.left < e.left + a.left := by
  have hlt := left_drainFor_lt .recorder ⟨true, ()⟩ (e := e) h
  rw [drainFor_eq] at hlt
  exact hlt

end Turn

/-! ## Runs -/

namespace Alignment

/-- Put a step in front of what follows it. -/
def prepend (t : Traced LineEvent Turn) (rest : Traced LineEvent Alignment) :
    Traced LineEvent Alignment :=
  ⟨{ rest.value with edits := t.value.edit :: rest.value.edits }, t.events ++ rest.events⟩

/-- The rest of an alignment once nothing is expected any more, by itself. -/
def ofActual (e a : Reader) : Traced LineEvent Alignment :=
  if h : a.hasLines = true then
    let t := Turn.drain e a
    have : t.value.expected.left + t.value.actual.left < e.left + a.left := Turn.left_drain_lt h
    prepend t (ofActual t.value.expected t.value.actual)
  else
    pure ⟨[], e, a⟩
termination_by e.left + a.left

/-- An alignment by itself. -/
def ofReaders (e a : Reader) : Traced LineEvent Alignment :=
  if h : e.hasLines = true then
    let t := Turn.next e a
    have : t.value.expected.left + t.value.actual.left < e.left + a.left := Turn.left_next_lt h
    prepend t (ofReaders t.value.expected t.value.actual)
  else
    ofActual e a
termination_by e.left + a.left

/-- Every mismatching turn meets a mismatch; a listener attends to the first of a run alone. -/
def keepFirstMismatch : Bool → List LineEvent → List LineEvent
  | _, [] => []
  | false, .firstMismatch :: rest => .firstMismatch :: keepFirstMismatch true rest
  | true, .firstMismatch :: rest => keepFirstMismatch true rest
  | seen, event :: rest => event :: keepFirstMismatch seen rest

variable {ε σ : Type} (l : Listener ε σ)

/-- A turn is followed, and then what comes behind it. -/
theorem prependFor_follow (h : Hearing σ) (t : Traced LineEvent Turn)
    (rest : Traced LineEvent Alignment) :
    prependFor (l.follow h t) (l.follow (l.follow h t).value.2 rest)
      = l.follow h (prepend t rest) := by
  apply Traced.ext
  · simp only [prependFor, prepend, Listener.follow, List.foldlM_append, Traced.value_bind,
      Traced.value_pure]
  · rw [prependFor, Listener.events_follow, Listener.events_follow, Listener.events_follow, prepend,
      List.foldlM_append, Traced.events_bind]
    rfl

theorem ofActualFor_eq (h : Hearing σ) (e a : Reader) :
    ofActualFor l h e a = l.follow h (ofActual e a) := by
  fun_induction ofActual e a generalizing h with
  | case1 e a hlines t ht ih =>
      rw [ofActualFor, dif_pos hlines]
      dsimp only
      rw [Turn.drainFor_eq, ← prependFor_follow, ← ih]
      rfl
  | case2 e a hlines =>
      rw [ofActualFor, dif_neg hlines]
      rfl

theorem ofReadersFor_eq (h : Hearing σ) (e a : Reader) :
    ofReadersFor l h e a = l.follow h (ofReaders e a) := by
  -- each turn leaves the listener in another state, so the induction is for all of them
  fun_induction ofReaders e a generalizing h with
  | case1 e a hlines t ht ih =>
      rw [ofReadersFor, dif_pos hlines]
      dsimp only
      rw [Turn.nextFor_eq, ← prependFor_follow, ← ih]
      rfl
  | case2 e a hlines =>
      rw [ofReadersFor, dif_neg hlines]
      exact ofActualFor_eq l h e a

/-- A listener that hears of every mismatch attends to those that are kept. -/
theorem foldlM_hear (seen : Bool) (s : σ) (events : List LineEvent) :
    Hearing.state <$> events.foldlM l.hear ⟨!seen, s⟩
      = (keepFirstMismatch seen events).foldlM l.attend s := by
  -- `seen` turns true at the first mismatch, and from there on the two sides skip the same ones
  induction events generalizing seen s with
  | nil => cases seen <;> rfl
  | cons event rest ih =>
      rw [List.foldlM_cons, map_bind]
      cases event with
      | readFailed cause =>
          have hkept : keepFirstMismatch seen (.readFailed cause :: rest)
              = .readFailed cause :: keepFirstMismatch seen rest := by cases seen <;> rfl
          rw [hkept, List.foldlM_cons, Listener.hear, Listener.attend, bind_assoc, bind_assoc]
          simp only [pure_bind, ih]
      | firstMismatch =>
          cases seen with
          | true =>
              rw [keepFirstMismatch]
              exact ih true s
          | false =>
              rw [keepFirstMismatch, List.foldlM_cons]
              have hheard : l.hear ⟨!false, s⟩ .firstMismatch
                  = l.firstMismatch s >>= fun state => pure ⟨!true, state⟩ := rfl
              rw [hheard, bind_assoc, Listener.attend]
              simp only [pure_bind, ih]

/-- The recorder tells what it is told. -/
theorem foldlM_attend_recorder (events : List LineEvent) :
    events.foldlM Listener.recorder.attend () = ⟨(), events⟩ := by
  induction events with
  | nil => rfl
  | cons event rest ih =>
      have hevent : Listener.recorder.attend () event = Traced.report event := by
        cases event <;> rfl
      rw [List.foldlM_cons, hevent]
      show (Traced.report event >>= fun _ => rest.foldlM Listener.recorder.attend ()) = _
      rw [ih]
      rfl

theorem runFor_eq_kept (s : σ) (e a : Reader) :
    runFor l s e a = do
      let s ← (keepFirstMismatch false (ofReaders e a).events).foldlM l.attend s
      return ((ofReaders e a).value, s) := by
  rw [runFor, ofReadersFor_eq, ← foldlM_hear]
  simp only [Listener.follow, bind_assoc, pure_bind, bind_map_left]
  rfl

/-- **The record of an alignment** are its events, without the mismatches behind the first. -/
theorem run_eq (e a : Reader) :
    run e a = ⟨(ofReaders e a).value, keepFirstMismatch false (ofReaders e a).events⟩ := by
  rw [run, runFor_eq_kept, foldlM_attend_recorder]
  exact Traced.ext rfl ((List.append_nil _).trans (List.append_nil _))

theorem value_run (e a : Reader) : (run e a).value = (ofReaders e a).value := by rw [run_eq]

/-- **What becomes of a listener** is told by the record. -/
theorem runFor_eq (s : σ) (e a : Reader) :
    runFor l s e a = do
      let s ← (run e a).events.foldlM l.attend s
      return ((run e a).value, s) := by
  rw [runFor_eq_kept, run_eq]

end Alignment

end Golden
