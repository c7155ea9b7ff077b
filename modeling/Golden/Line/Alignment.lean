import Golden.Diagnostic
import Golden.Line.Reader

/-!
# Golden.Line.Alignment — expected lines against actual lines

Two line streams are aligned greedily.  This is not a general difference algorithm: a mismatch is
settled on the spot by looking one line ahead on either side.

* The expected line equals the actual line after the next: the next actual line is extra.
* The actual line equals the expected line after the next: the next expected line is missing.
* Otherwise one line stands where the other was expected.

A side that has run out settles a mismatch too: with nothing expected any more the actual line is
extra, with nothing actual any more the expected line is missing.  Once the expected side is used
up, what is left of the actual side is extra unless it is blank.

The result is the list of steps taken (`Edit`), agreements included, so nothing about either side is
lost; the diagnostics are read off it, and the texts match when every step is an agreement.

## Listeners

Somebody is told of the first mismatch as soon as it is met, while the alignment is going on, and of
every failed read (`Listener`).  What they do then may fail in its own ways and is no concern of the
alignment: it gives a listener nothing but the word, and takes nothing from it
(`Alignment.runFor`).  The listener that only keeps a record makes of an alignment the events met on
the way to it (`Alignment.run`).

## Termination

There is no fuel.  Each turn consumes a line from at least one side (`Turn.left_nextFor_lt`,
`Turn.left_drainFor_lt`): a turn is only taken when the driving side still has something to show,
and a mismatch against a side with nothing in view is always settled on the other.
-/

namespace Golden

/-- One step of an alignment. -/
inductive Edit
  /-- The same line on both sides. -/
  | keep (line : String)
  /-- A line only the actual side has. -/
  | add (line : String)
  /-- A line only the expected side has. -/
  | remove (line : String)
  /-- An actual line where another was expected. -/
  | substitute (observed expected : String)
  deriving DecidableEq, Repr

namespace Edit

def isKeep : Edit → Bool
  | .keep _ => true
  | _ => false

def diagnostics : Edit → List Diagnostic
  | .keep _ => []
  | .add line => [⟨.added, line⟩]
  | .remove line => [⟨.removed, line⟩]
  | .substitute observed expected => [⟨.observed, observed⟩, ⟨.expected, expected⟩]

/-- A step is silent exactly when it is an agreement. -/
theorem diagnostics_eq_nil_iff : ∀ {e : Edit}, e.diagnostics = [] ↔ e.isKeep = true
  | .keep _ | .add _ | .remove _ | .substitute _ _ => by simp [diagnostics, isKeep]

end Edit

/-- Whoever listens to an alignment: what a failed read is to them, and what they do when the two
sides first differ. -/
structure Listener (ε σ : Type) where
  readFailed : Cause → ε
  firstMismatch : σ → Traced ε σ

/-- What has become of a listener, and whether the first mismatch is still to come. -/
structure Hearing (σ : Type) where
  waiting : Bool
  state : σ

namespace Listener

variable {ε σ α : Type} (l : Listener ε σ)

/-- Hear one thing.  Of all mismatches only the first is attended to. -/
def hear (h : Hearing σ) : LineEvent → Traced ε (Hearing σ)
  | .readFailed cause => do
    Traced.report (l.readFailed cause)
    return h
  | .firstMismatch => do
    if h.waiting then
      let state ← l.firstMismatch h.state
      return ⟨false, state⟩
    else return h

/-- Hear all that happened on the way to a value, and go on with the value. -/
def follow (h : Hearing σ) (x : Traced LineEvent α) : Traced ε (α × Hearing σ) := do
  let h ← x.events.foldlM l.hear h
  return (x.value, h)

/-- The listener that keeps a record of what it hears. -/
def recorder : Listener LineEvent Unit := ⟨.readFailed, fun _ => Traced.report .firstMismatch⟩

end Listener

/-- A step of an alignment and the two readers after it. -/
structure Turn where
  edit : Edit
  expected : Reader
  actual : Reader
  deriving DecidableEq, Repr

namespace Turn

variable {ε σ : Type}

/-- Settle a mismatch between the two sides. -/
def settle (expected actual : Reader) : Traced LineEvent Turn := do
  let expected ← expected.prepare 0
  let actual ← actual.prepare 1
  if expected.line 0 = actual.line 1 ∨ expected.hasLines = false then
    let (line, actual) ← actual.consume
    return ⟨.add line, expected, actual⟩
  else
    let expected ← expected.prepare 1
    let actual ← actual.prepare 0
    if expected.line 1 = actual.line 0 ∨ actual.hasLines = false then
      let (line, expected) ← expected.consume
      return ⟨.remove line, expected, actual⟩
    else
      let (observed, actual) ← actual.consume
      let (line, expected) ← expected.consume
      return ⟨.substitute observed line, expected, actual⟩

/-- One turn while something is still expected.  A mismatch is announced before it is settled. -/
def nextFor (l : Listener ε σ) (h : Hearing σ) (expected actual : Reader) :
    Traced ε (Turn × Hearing σ) := do
  let ((shared, expected, actual), h) ← l.follow h (expected.takeShared actual)
  match shared with
  | some line => return (⟨.keep line, expected, actual⟩, h)
  | none =>
    let h ← l.hear h .firstMismatch
    l.follow h (settle expected actual)

/-- One turn once nothing is expected any more: a blank actual line agrees with that. -/
def drainFor (l : Listener ε σ) (h : Hearing σ) (expected actual : Reader) :
    Traced ε (Turn × Hearing σ) := do
  let ((shared, actual, expected), h) ← l.follow h (actual.takeShared expected)
  match shared with
  | some line => return (⟨.keep line, expected, actual⟩, h)
  | none =>
    let h ← l.hear h .firstMismatch
    let ((line, actual), h) ← l.follow h actual.consume
    return (⟨.add line, expected, actual⟩, h)

/-- What both readers can still give after a turn. -/
def left (t : Turn) : Nat := t.expected.left + t.actual.left

end Turn

/-! ### Every turn makes progress -/

namespace Reader

theorem left_takeShared_le (self other : Reader) :
    (self.takeShared other).value.2.1.left ≤ self.left ∧
      (self.takeShared other).value.2.2.left ≤ other.left := by
  have h₁ := left_prepare_le self 0
  have h₂ := left_prepare_le other 0
  have h₃ := left_skip_le (self.prepare 0).value 1
  have h₄ := left_skip_le (other.prepare 0).value 1
  simp only [takeShared, Traced.value_bind]
  split <;> simp only [Traced.value_bind, Traced.value_pure] <;> omega

/-- Taking a shared line takes one from a reader that still has something to show. -/
theorem left_takeShared_lt {self other : Reader} (h : self.hasLines = true)
    (hs : (self.takeShared other).value.1.isSome = true) :
    (self.takeShared other).value.2.1.left < self.left := by
  have h₁ := left_prepare_le self 0
  have h₃ := left_skip_le (self.prepare 0).value 1
  have hne : (self.prepare 0).value.window ≠ [] := prepare_ne_nil_of_hasLines h
  have hlen := List.length_pos_iff.mpr hne
  simp only [takeShared, Traced.value_bind] at hs ⊢
  split at hs
  · rename_i heq
    simp only [if_pos heq, Traced.value_bind, Traced.value_pure]
    omega
  · simp at hs

/-- When the next lines differ, both readers come back with position 0 asked for. -/
theorem takeShared_none {self other : Reader} (hs : (self.takeShared other).value.1 = none) :
    (self.takeShared other).value.2 = ((self.prepare 0).value, (other.prepare 0).value) ∧
      (self.prepare 0).value.line 0 ≠ (other.prepare 0).value.line 0 := by
  simp only [takeShared, Traced.value_bind] at hs ⊢
  split at hs
  · simp at hs
  · rename_i hne
    simp [hne]

end Reader

namespace Turn

/-- Settling a mismatch consumes a line, provided position 0 has been asked for on both sides and
the next lines really differ. -/
theorem left_settle_lt {e a : Reader}
    (ha : a.window = [] → a.source.hasMore = false)
    (hne : e.line 0 ≠ a.line 0) :
    (settle e a).value.left < e.left + a.left := by
  have hle : (e.prepare 0).value.left ≤ e.left := Reader.left_prepare_le e 0
  have hla : (a.prepare 1).value.left ≤ a.left := Reader.left_prepare_le a 1
  -- an actual side with nothing in view is never the one to be consumed from
  have hactual : (e.prepare 0).value.line 0 = (a.prepare 1).value.line 1 ∨
      (e.prepare 0).value.hasLines = false → (a.prepare 1).value.window ≠ [] := by
    intro hcond
    refine Reader.prepare_window_ne_nil (fun hw => hne ?_) 1
    have hsame := Reader.prepare_of_drained hw (ha hw) 1
    rw [hsame] at hcond
    cases hew : e.window with
    | nil => simp [Reader.line, hw, hew]
    | cons l ls =>
        have hprep : (e.prepare 0).value = e := by simp [Reader.prepare, hew]
        rw [hprep] at hcond
        rcases hcond with hcond | hcond
        · rw [hcond]; simp [Reader.line, hw]
        · have : l = "" := by
            have := hcond
            simp [Reader.hasLines, hew] at this
            exact this.2.1
          simp [Reader.line, hw, hew, this]
  -- an expected side that still has lines has one in view
  have hexpected : (e.prepare 0).value.hasLines ≠ false → (e.prepare 0).value.window ≠ [] := by
    intro hl hw
    exact hl (Reader.hasLines_of_drained hw (Reader.hasMore_of_prepare_nil hw))
  simp only [settle, Traced.value_bind]
  split
  · rename_i hcond
    have := Reader.left_consume_lt (hactual hcond)
    simp only [left, Traced.value_bind, Traced.value_pure]
    omega
  · rename_i hcond
    have hwin := hexpected (fun h => hcond (Or.inr h))
    have hwin' := Reader.prepare_window_ne_nil hwin 1
    have h₁ := Reader.left_consume_lt hwin'
    have h₂ := Reader.left_prepare_le (e.prepare 0).value 1
    have h₃ := Reader.left_prepare_le (a.prepare 1).value 0
    have h₄ := Reader.left_consume_le ((a.prepare 1).value.prepare 0).value
    simp only [Traced.value_bind]
    split <;> simp only [left, Traced.value_bind, Traced.value_pure] <;> omega

variable {ε σ : Type}

theorem left_nextFor_lt (l : Listener ε σ) (w : Hearing σ) {e a : Reader} (h : e.hasLines = true) :
    (nextFor l w e a).value.1.left < e.left + a.left := by
  have hle := Reader.left_takeShared_le e a
  have hlt := @Reader.left_takeShared_lt e a h
  have hnone := @Reader.takeShared_none e a
  have h₁ := Reader.left_prepare_le e 0
  have h₂ := Reader.left_prepare_le a 0
  simp only [nextFor, Listener.follow, Traced.value_bind, Traced.value_pure]
  generalize (e.takeShared a).value = v at *
  obtain ⟨_ | line, e', a'⟩ := v
  · obtain ⟨hr, hne⟩ := hnone rfl
    cases hr
    have hsettle := left_settle_lt (e := (e.prepare 0).value) (a := (a.prepare 0).value)
      Reader.hasMore_of_prepare_nil hne
    simp only [Traced.value_bind, Traced.value_pure]
    omega
  · have := hlt rfl
    simp only [left, Traced.value_pure] at *
    omega

theorem left_drainFor_lt (l : Listener ε σ) (w : Hearing σ) {e a : Reader}
    (h : a.hasLines = true) : (drainFor l w e a).value.1.left < e.left + a.left := by
  have hle := Reader.left_takeShared_le a e
  have hlt := @Reader.left_takeShared_lt a e h
  have hnone := @Reader.takeShared_none a e
  have h₁ := Reader.left_prepare_le e 0
  have h₂ := Reader.left_prepare_le a 0
  simp only [drainFor, Listener.follow, Traced.value_bind, Traced.value_pure]
  generalize (a.takeShared e).value = v at *
  obtain ⟨_ | line, a', e'⟩ := v
  · obtain ⟨hr, -⟩ := hnone rfl
    cases hr
    have hconsume := Reader.left_consume_lt (Reader.prepare_ne_nil_of_hasLines h)
    simp only [left, Traced.value_bind, Traced.value_pure]
    omega
  · have := hlt rfl
    simp only [left, Traced.value_pure] at *
    omega

end Turn

/-! ### The alignment -/

/-- The steps of an alignment and both readers at its end. -/
structure Alignment where
  edits : List Edit
  expected : Reader
  actual : Reader
  deriving DecidableEq, Repr

namespace Alignment

variable {ε σ : Type}

/-- Put a turn in front of what follows it. -/
def prependFor (t : Traced ε (Turn × Hearing σ)) (rest : Traced ε (Alignment × Hearing σ)) :
    Traced ε (Alignment × Hearing σ) :=
  ⟨({ rest.value.1 with edits := t.value.1.edit :: rest.value.1.edits }, rest.value.2),
    t.events ++ rest.events⟩

/-- The rest of an alignment once nothing is expected any more. -/
def ofActualFor (l : Listener ε σ) (w : Hearing σ) (e a : Reader) :
    Traced ε (Alignment × Hearing σ) :=
  if h : a.hasLines = true then
    let t := Turn.drainFor l w e a
    have : t.value.1.expected.left + t.value.1.actual.left < e.left + a.left :=
      Turn.left_drainFor_lt l w h
    prependFor t (ofActualFor l t.value.2 t.value.1.expected t.value.1.actual)
  else
    pure (⟨[], e, a⟩, w)
termination_by e.left + a.left

/-- Align two readers: first while something is expected, then for what is left of the other. -/
def ofReadersFor (l : Listener ε σ) (w : Hearing σ) (e a : Reader) :
    Traced ε (Alignment × Hearing σ) :=
  if h : e.hasLines = true then
    let t := Turn.nextFor l w e a
    have : t.value.1.expected.left + t.value.1.actual.left < e.left + a.left :=
      Turn.left_nextFor_lt l w h
    prependFor t (ofReadersFor l t.value.2 t.value.1.expected t.value.1.actual)
  else
    ofActualFor l w e a
termination_by e.left + a.left

/-- **Align `actual` against `expected`** for a listener; the alignment, and the listener after
it. -/
def runFor (l : Listener ε σ) (s : σ) (expected actual : Reader) : Traced ε (Alignment × σ) := do
  let (alignment, h) ← ofReadersFor l ⟨true, s⟩ expected actual
  return (alignment, h.state)

/-- Align `actual` against `expected` for the record. -/
def run (expected actual : Reader) : Traced LineEvent Alignment := do
  let (alignment, ()) ← runFor .recorder () expected actual
  return alignment

/-- The two sides agree when every step is an agreement. -/
def isMatch (alignment : Alignment) : Bool := alignment.edits.all Edit.isKeep

def diagnostics (alignment : Alignment) : List Diagnostic :=
  alignment.edits.flatMap Edit.diagnostics

end Alignment

end Golden
