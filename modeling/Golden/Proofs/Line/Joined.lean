import Mathlib.Data.List.DropRight
import Golden.Proofs.Line.Interchange

/-!
# Golden.Proofs.Line.Joined — bare lines and the texts put together from them

Lines joined by newlines, with or without one at the very end, come out of the text again
(`Source.lines_joinLines`), provided that none has a newline of its own and none ends in a carriage
return, which a reader would take off (`Bare`).  A newline at the end begins one more line, which is
empty; and so is the one line of a text without any.

Conversely all that a source delivers are bare lines (`Source.bare_of_mem_lines`): it is cut at every
newline, and carriage returns at the end of a line are trimmed off.
-/

namespace Golden

/-- A line that a reader shows as it is. -/
structure Bare (line : String) : Prop where
  newline_notMem : '\n' ∉ line.toList
  getLast?_ne : line.toList.getLast? ≠ some '\r'

instance (line : String) : Decidable (Bare line) :=
  decidable_of_iff ('\n' ∉ line.toList ∧ line.toList.getLast? ≠ some '\r')
    ⟨fun ⟨hnew, hlast⟩ => ⟨hnew, hlast⟩, fun ⟨hnew, hlast⟩ => ⟨hnew, hlast⟩⟩

/-- There is nothing to trim off a bare line. -/
theorem Bare.trimTerminators_eq {line : String} (h : Bare line) :
    trimTerminators line.toList = line.toList := by
  show line.toList.rdropWhile _ = line.toList
  rw [List.rdropWhile_eq_self_iff]
  intro hne hlast
  have hlast? := List.getLast?_eq_some_getLast hne
  rw [Bool.or_eq_true, beq_iff_eq, beq_iff_eq] at hlast
  rcases hlast with hreturn | hnewline
  · exact h.getLast?_ne (hreturn ▸ hlast?)
  · exact h.newline_notMem (hnewline ▸ List.getLast_mem hne)

/-- A line without newlines is bare once it is trimmed. -/
theorem bare_trimTerminators {line : List Char} (h : '\n' ∉ line) :
    Bare (String.ofList (trimTerminators line)) := by
  rw [show trimTerminators line = line.rdropWhile fun c => c == '\r' || c == '\n' from rfl]
  constructor
  · rw [String.toList_ofList]
    exact fun hmem => h ((List.rdropWhile_prefix _ line).subset hmem)
  · rw [String.toList_ofList]
    intro hlast
    obtain ⟨hne, hreturn⟩ := List.mem_getLast?_eq_getLast hlast
    exact List.rdropWhile_last_not _ line hne (by rw [← hreturn]; rfl)

/-- Lines joined by newlines, `closed` by one at the end or not. -/
def joinLines (lines : List String) (closed : Bool) : String :=
  "\n".intercalate lines ++ if closed then "\n" else ""

/-- The lines a text has besides those it is joined from. -/
def linesAfter (closed : Bool) : List String := if closed then [""] else []

namespace Source

/-- A bare line, and after it the end of the text with or without a newline. -/
theorem lines_text_end {line : String} (h : Bare line) (closed : Bool) :
    (Source.text (some (line.toList ++ (if closed then "\n" else "").toList))).lines
      = line :: linesAfter closed := by
  cases closed with
  | false =>
      show (Source.text (some (line.toList ++ []))).lines = [line]
      rw [List.append_nil, lines_text_of_notMem h.newline_notMem, h.trimTerminators_eq,
        String.ofList_toList]
  | true =>
      show (Source.text (some (line.toList ++ '\n' :: []))).lines = [line, ""]
      rw [lines_text_append [] h.newline_notMem, h.trimTerminators_eq, String.ofList_toList,
        lines_text_of_notMem List.not_mem_nil]
      rfl

/-- **The lines of a joined text** are the lines it is joined from. -/
theorem lines_joinLines {lines : List String} (hne : lines ≠ []) (h : ∀ line ∈ lines, Bare line)
    (closed : Bool) : (ofText (joinLines lines closed)).lines = lines ++ linesAfter closed := by
  have hseparator : "\n".toList = ['\n'] := rfl
  rw [ofText, joinLines, String.toList_append, String.toList_intercalate, hseparator]
  induction lines with
  | nil => exact absurd rfl hne
  | cons line lines ih =>
      have hline : Bare line := h line List.mem_cons_self
      cases lines with
      | nil =>
          rw [List.map_singleton, List.intercalate_singleton]
          exact lines_text_end hline closed
      | cons next lines =>
          have hrest := ih (List.cons_ne_nil next lines) fun l hl => h l (List.mem_cons_of_mem _ hl)
          rw [List.map_cons, List.map_cons, List.intercalate_cons_cons, List.append_assoc,
            List.append_assoc, List.singleton_append, lines_text_append _ hline.newline_notMem,
            hline.trimTerminators_eq, String.ofList_toList, ← List.map_cons, hrest]
          rfl

/-- Joining no lines at all gives one that is empty. -/
theorem lines_joinLines_nil (closed : Bool) :
    (ofText (joinLines [] closed)).lines = "" :: linesAfter closed := by
  have hempty : Bare "" := by decide
  exact lines_text_end hempty closed

/-! ### Lines of any source -/

/-- By induction on the text, which is cut at its first newline. -/
theorem bare_of_mem_lines_text (text : List Char) :
    ∀ line ∈ (Source.text (some text)).lines, Bare line := by
  intro line hline
  by_cases hnew : '\n' ∈ text
  · obtain ⟨front, rest, rfl, hfront⟩ := List.eq_append_cons_of_mem hnew
    rw [lines_text_append rest hfront, List.mem_cons] at hline
    rcases hline with rfl | hrest
    · exact bare_trimTerminators hfront
    · exact bare_of_mem_lines_text rest line hrest
  · rw [lines_text_of_notMem hnew, List.mem_singleton] at hline
    subst hline
    exact bare_trimTerminators hnew
termination_by text.length
decreasing_by
  subst_vars
  simp only [List.length_append, List.length_cons]
  omega

/-- **Every line that a source still delivers is bare.** -/
theorem bare_of_mem_lines (source : Source) : ∀ line ∈ source.lines, Bare line := by
  cases source with
  | text rest =>
      cases rest with
      | none =>
          rw [lines_of_ended rfl]
          exact fun _ h => absurd h List.not_mem_nil
      | some rest => exact bare_of_mem_lines_text rest
  | stream feed ended =>
      cases ended with
      | true =>
          rw [lines_of_ended rfl]
          exact fun _ h => absurd h List.not_mem_nil
      | false =>
          rw [lines_stream]
          exact bare_of_mem_lines_text _

end Source

end Golden
