import Mathlib.Data.Option.Basic

/-!
# Golden.Proofs.Text.Scanned — parts of a text that end where they end

A scanner takes a part off the start of a text and gives back what follows.  What it finds in a text
it need not find in a longer one, since the part may go on there.  A scanner is **steady** for
certain continuations if none of them makes a difference to it (`Steady`).

Scanners are put together from scanners, and steadiness is inherited (`Steady.bind`, `Steady.map`).
So what is left to prove of a format are the few scanners that look at characters themselves.
-/

namespace Golden.Text

/-- A scanner that finds the same in front of every continuation of a kind. -/
structure Steady {α : Type} (Ends : List Char → Prop)
    (scan : List Char → Option (α × List Char)) : Prop where
  append : ∀ {text later rest : List Char} {part : α}, Ends rest →
    scan text = some (part, later) → scan (text ++ rest) = some (part, later ++ rest)

namespace Steady

variable {α β : Type} {Ends : List Char → Prop} {scan : List Char → Option (α × List Char)}

theorem ofPart (part : α) : Steady Ends fun text => some (part, text) := by
  refine ⟨?_⟩
  intro text later rest found _ h
  cases h
  rfl

/-- One part behind another. -/
theorem bind {next : α → List Char → Option (β × List Char)} (h : Steady Ends scan)
    (hnext : ∀ part, Steady Ends (next part)) :
    Steady Ends fun text => (scan text).bind fun (part, rest) => next part rest := by
  refine ⟨?_⟩
  intro text later rest found hrest hfound
  obtain ⟨⟨part, behind⟩, hpart, hbehind⟩ := Option.bind_eq_some_iff.mp hfound
  show (scan (text ++ rest)).bind _ = _
  rw [h.append hrest hpart, Option.bind_some]
  exact (hnext part).append hrest hbehind

theorem map (h : Steady Ends scan) (f : α → β) :
    Steady Ends fun text => (scan text).map fun (part, rest) => (f part, rest) := by
  refine ⟨?_⟩
  intro text later rest found hrest hfound
  obtain ⟨⟨part, behind⟩, hpart, hpair⟩ := Option.map_eq_some_iff.mp hfound
  cases hpair
  show (scan (text ++ rest)).map _ = _
  rw [h.append hrest hpart]
  rfl

end Steady

end Golden.Text
