import Golden.Proofs.Line.Interchange
import Golden.Proofs.Line.Progress

/-!
# Golden.Proofs.Line.Failures — every failed read is reported once

A failed read ends a source, and nobody who looks at lines can tell that end from any other.  It is
not lost, though: the reader that met it reports an event.  What a source still has to report is the
first failure among the reads to come (`Source.failure?`), and a reader owes that report until the
line has been pulled (`Reader.owed`).

Every operation reports exactly what it takes off the debt of the readers it works on
(`Reader.count_readFailed_fill` and the lemmas behind it), and an alignment goes on until both
sources have ended and nothing is owed any more.  **So an alignment reports every failure that its
readers owed, and each once** (`Alignment.count_readFailed_run`).
-/

namespace Golden

/-! ## What is still to be reported -/

namespace Delivery

/-- The first failure among the reads to come. -/
def failure? : List Delivery → Option Cause
  | [] => none
  | .failure cause :: _ => some cause
  | _ :: rest => failure? rest

/-- Reading a line either meets the first failure, if there is one, or stops at a newline before it
and leaves it to come. -/
theorem failure?_readLine (feed : List Delivery) :
    ((readLine feed).failure = failure? feed ∧
        (readLine feed).bytes.getLast? ≠ some Text.Utf8.newline) ∨
      ((readLine feed).failure = none ∧ failure? (readLine feed).rest = failure? feed ∧
        (readLine feed).bytes.getLast? = some Text.Utf8.newline) := by
  induction feed with
  | nil => exact Or.inl ⟨rfl, by simp [readLine]⟩
  | cons delivery rest ih =>
      cases delivery with
      | interrupted => exact ih
      | failure cause => exact Or.inl ⟨rfl, by simp [readLine]⟩
      | bytes content =>
          simp only [readLine, failure?]
          cases hcut : cutAfterNewline content with
          | some cut => exact Or.inr ⟨rfl, rfl, getLast?_of_cutAfterNewline_eq_some hcut⟩
          | none =>
              rcases ih with ⟨hfailure, hshort⟩ | ⟨hfailure, hrest, hlast⟩
              · refine Or.inl ⟨hfailure, fun hlast => ?_⟩
                rw [List.getLast?_append, Option.or_eq_some_iff] at hlast
                rcases hlast with hlast | ⟨-, hlast⟩
                · exact hshort hlast
                · exact newline_notMem_of_cutAfterNewline hcut (List.mem_of_getLast? hlast)
              · refine Or.inr ⟨hfailure, hrest, ?_⟩
                rw [List.getLast?_append, hlast]
                rfl

end Delivery

namespace Source

/-- The failure a source still has to report. -/
def failure? : Source → Option Cause
  | .text _ | .stream _ true => none
  | .stream feed false => Delivery.failure? feed

/-- How often a source still has to report a cause, which is once or never. -/
def owed (source : Source) (cause : Cause) : Nat := source.failure?.toList.count cause

theorem owed_of_ended {source : Source} (h : source.hasMore = false) (cause : Cause) :
    source.owed cause = 0 := by
  cases source with
  | text rest => rfl
  | stream feed ended =>
      cases ended with
      | true => rfl
      | false => cases h

theorem count_failure_read (source : Source) (cause : Cause) (h : source.hasMore = true) :
    source.read.failure.toList.count cause + source.read.after.owed cause = source.owed cause := by
  cases source with
  | text rest =>
      cases rest with
      | none => cases h
      | some rest =>
          simp only [read]
          split <;> rfl
  | stream feed ended =>
      cases ended with
      | true => cases h
      | false =>
          simp only [read, Bool.false_or]
          rcases Delivery.failure?_readLine feed with
            ⟨hfailure, hshort⟩ | ⟨hfailure, hrest, hlast⟩
          · -- the line came without a newline, so that the source has ended
            have hended :
                ((Delivery.readLine feed).bytes.getLast? != some Text.Utf8.newline) = true :=
              bne_iff_ne.mpr hshort
            rw [hended, hfailure, Bool.true_or]
            rfl
          · rw [hlast, hfailure, bne_self_eq_false]
            simp [owed, failure?, hrest]

theorem count_readFailed_pull (n : Nat) (source : Source) (cause : Cause) :
    (source.pull n).events.count (.readFailed cause) + (source.pull n).value.2.owed cause
      = source.owed cause := by
  induction n generalizing source with
  | zero => simp [pull]
  | succ n ih =>
      unfold pull
      cases h : source.hasMore with
      | false => simp
      | true =>
          have hread := count_failure_read source cause h
          have hrest := ih source.read.after
          have hmap :
              (source.read.failure.toList.map LineEvent.readFailed).count (.readFailed cause)
                = source.read.failure.toList.count cause := by
            cases source.read.failure with
            | none => rfl
            | some met => simp [List.count_singleton]
          simp only [if_true, List.count_append, hmap]
          omega

end Source

/-! ## Every operation pays what it reports -/

namespace Reader

/-- How often a reader still has to report a cause. -/
def owed (r : Reader) (cause : Cause) : Nat := r.source.owed cause

theorem owed_of_drained {r : Reader} (h : r.hasLines = false) (cause : Cause) :
    r.owed cause = 0 := by
  apply Source.owed_of_ended
  rw [hasLines, Bool.or_eq_false_iff] at h
  exact h.1

variable (r : Reader) (cause : Cause)

theorem count_readFailed_fill :
    r.fill.events.count (.readFailed cause) + r.fill.value.owed cause = r.owed cause := by
  have hpull := Source.count_readFailed_pull (lookahead - r.window.length) r.source cause
  simpa [fill, owed] using hpull

theorem count_readFailed_prepare (pos : Nat) :
    (r.prepare pos).events.count (.readFailed cause) + (r.prepare pos).value.owed cause
      = r.owed cause := by
  unfold prepare
  split
  · exact count_readFailed_fill r cause
  · simp

theorem count_readFailed_skip (count : Nat) :
    (r.skip count).events.count (.readFailed cause) + (r.skip count).value.owed cause
      = r.owed cause :=
  count_readFailed_fill { r with window := r.window.drop count } cause

theorem count_readFailed_consume :
    r.consume.events.count (.readFailed cause) + r.consume.value.2.owed cause = r.owed cause := by
  have hprepare := count_readFailed_prepare r cause 0
  have hskip := count_readFailed_skip (r.prepare 0).value cause 1
  simp only [consume, Traced.events_bind, Traced.value_bind, Traced.events_pure, Traced.value_pure,
    List.count_append, List.count_nil]
  omega

theorem count_readFailed_takeShared (other : Reader) :
    (r.takeShared other).events.count (.readFailed cause)
        + ((r.takeShared other).value.2.1.owed cause + (r.takeShared other).value.2.2.owed cause)
      = r.owed cause + other.owed cause := by
  have hself := count_readFailed_prepare r cause 0
  have hother := count_readFailed_prepare other cause 0
  have hselfSkip := count_readFailed_skip (r.prepare 0).value cause 1
  have hotherSkip := count_readFailed_skip (other.prepare 0).value cause 1
  simp only [takeShared, Traced.events_bind, Traced.value_bind, List.count_append]
  split
  · simp only [Traced.events_bind, Traced.value_bind, Traced.events_pure, Traced.value_pure,
      List.count_append, List.count_nil]
    omega
  · simp only [Traced.events_pure, Traced.value_pure, List.count_nil]
    omega

end Reader

namespace Turn

/-- How often both readers after a turn still have to report a cause. -/
def owed (t : Turn) (cause : Cause) : Nat := t.expected.owed cause + t.actual.owed cause

variable (e a : Reader) (cause : Cause)

/-- Announcing a mismatch is reporting no failure. -/
theorem count_readFailed_firstMismatch :
    [LineEvent.firstMismatch].count (.readFailed cause) = 0 := rfl

theorem count_readFailed_settle :
    (settle e a).events.count (.readFailed cause) + (settle e a).value.owed cause
      = e.owed cause + a.owed cause := by
  have hexpected := Reader.count_readFailed_prepare e cause 0
  have hactual := Reader.count_readFailed_prepare a cause 1
  have hagain := Reader.count_readFailed_prepare (e.prepare 0).value cause 1
  have hback := Reader.count_readFailed_prepare (a.prepare 1).value cause 0
  simp only [settle, owed, Traced.events_bind, Traced.value_bind, List.count_append]
  split
  · have htaken := Reader.count_readFailed_consume (a.prepare 1).value cause
    simp only [Traced.events_bind, Traced.value_bind, Traced.events_pure, Traced.value_pure,
      List.count_append, List.count_nil]
    omega
  · have hline := Reader.count_readFailed_consume ((e.prepare 0).value.prepare 1).value cause
    have hobserved := Reader.count_readFailed_consume ((a.prepare 1).value.prepare 0).value cause
    simp only [Traced.events_bind, Traced.value_bind, List.count_append]
    split
    · simp only [Traced.events_bind, Traced.value_bind, Traced.events_pure, Traced.value_pure,
        List.count_append, List.count_nil]
      omega
    · simp only [Traced.events_bind, Traced.value_bind, Traced.events_pure, Traced.value_pure,
        List.count_append, List.count_nil]
      omega

theorem count_readFailed_next :
    (next e a).events.count (.readFailed cause) + (next e a).value.owed cause
      = e.owed cause + a.owed cause := by
  have hshared := Reader.count_readFailed_takeShared e cause a
  simp only [next, owed, Traced.events_bind, Traced.value_bind, List.count_append]
  generalize (e.takeShared a).value = taken at *
  obtain ⟨_ | line, e', a'⟩ := taken
  · have hsettle := count_readFailed_settle e' a' cause
    simp only [owed] at hsettle hshared
    simp only [Traced.events_bind, Traced.value_bind, Traced.events_report, List.count_append,
      count_readFailed_firstMismatch]
    omega
  · simp only [Traced.events_pure, Traced.value_pure, List.count_nil] at hshared ⊢
    omega

theorem count_readFailed_drain :
    (drain e a).events.count (.readFailed cause) + (drain e a).value.owed cause
      = e.owed cause + a.owed cause := by
  have hshared := Reader.count_readFailed_takeShared a cause e
  simp only [drain, owed, Traced.events_bind, Traced.value_bind, List.count_append]
  generalize (a.takeShared e).value = taken at *
  obtain ⟨_ | line, a', e'⟩ := taken
  · have htaken := Reader.count_readFailed_consume a' cause
    simp only [Traced.events_bind, Traced.value_bind, Traced.events_report, Traced.events_pure,
      Traced.value_pure, List.count_append, List.count_nil, count_readFailed_firstMismatch]
      at hshared ⊢
    omega
  · simp only [Traced.events_pure, Traced.value_pure, List.count_nil] at hshared ⊢
    omega

end Turn

/-! ## All turns -/

namespace Alignment

theorem count_readFailed_ofActual {e : Reader} (a : Reader) (he : e.hasLines = false)
    (cause : Cause) :
    (ofActual e a).events.count (.readFailed cause) = e.owed cause + a.owed cause := by
  fun_induction ofActual e a with
  | case1 e a _ t _ ih =>
      have hturn := Turn.count_readFailed_drain e a cause
      have hrest := ih (Turn.hasLines_drain a he)
      simp only [prepend, List.count_append, hrest]
      exact hturn
  | case2 e a ha =>
      rw [Reader.owed_of_drained he, Reader.owed_of_drained (Bool.eq_false_iff.mpr ha)]
      rfl

theorem count_readFailed_ofReaders (e a : Reader) (cause : Cause) :
    (ofReaders e a).events.count (.readFailed cause) = e.owed cause + a.owed cause := by
  fun_induction ofReaders e a with
  | case1 e a _ t _ ih =>
      simp only [prepend, List.count_append, ih]
      exact Turn.count_readFailed_next e a cause
  | case2 e a he => exact count_readFailed_ofActual a (Bool.eq_false_iff.mpr he) cause

theorem count_readFailed_keepFirstMismatch (seen : Bool) (events : List LineEvent)
    (cause : Cause) :
    (keepFirstMismatch seen events).count (.readFailed cause)
      = events.count (.readFailed cause) := by
  induction events generalizing seen with
  | nil => simp [keepFirstMismatch]
  | cons event events ih =>
      cases event with
      | readFailed met => cases seen <;> simp [keepFirstMismatch, ih, List.count_cons]
      | firstMismatch => cases seen <;> simp [keepFirstMismatch, ih]

/-- **An alignment reports every failure its readers owed, and each once.** -/
theorem count_readFailed_run (expected actual : Reader) (cause : Cause) :
    (run expected actual).events.count (.readFailed cause)
      = expected.owed cause + actual.owed cause := by
  rw [run_eq, count_readFailed_keepFirstMismatch, count_readFailed_ofReaders]

end Alignment

end Golden
