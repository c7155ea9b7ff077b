import Mathlib.Data.List.Infix
import Golden.Toml.Quoted

/-!
# Golden.Proofs.Toml.Quoted — quoted texts read back

A text is written in one of four ways, and **each of them is read back as the text it was, in front
of anything but another quote** (`readText_write`).  What has to be shown differs from way to way.

* Between double quotes every character is read back from its escape (`readBasic_escapeChar`), so on
  one line nothing can go wrong (`readBasic_line`).
* Between triple double quotes, quotes may be left as they are, but never three in a row.  The two
  that may stand in front of the closing ones are part of the text (`closing?_replicate`), and
  anywhere else a quote is followed by too few of them to close it (`closing?_inside`).
* Between single quotes nothing is escaped, so the text must have no need of it (`Literal`).  The
  runs that were counted before this way was taken leave room for none that would close the text
  (`le_longestRun_of_infix`, `literal_of_single`).

A text of several lines starts behind a line end of its own, which is passed over; a text of one
line begins with no line end that could be mistaken for it (`skipFirstLineEnd_started`).
-/

namespace Golden.Toml

/-! ## Characters -/

/-- Every character but a newline is one that a line may show or a control character. -/
theorem isPrintable_of_not_control {c : Char} (h : isControl c = false) (hline : c ≠ '\n') :
    isPrintable c = true := by
  by_cases htab : c = '\t'
  · rw [htab]
    rfl
  · have hrange : 0x20 ≤ c.toNat ∧ c ≠ '\x7f' := by
      simpa [isControl, hline, htab] using h
    simp [isPrintable, hrange.1, hrange.2]

theorem ofEscape?_of_escape? {c letter : Char} (h : escape? c = some letter) :
    ofEscape? letter = some c ∧ letter ≠ 'u' ∧ letter ≠ 'U' := by
  unfold escape? at h
  split at h <;> cases h <;> exact ⟨rfl, by decide⟩

theorem charOfNumber?_toNat (c : Char) : charOfNumber? c.toNat = some c := by
  have hvalid : c.toNat.isValidChar := c.valid
  rw [charOfNumber?, if_pos hvalid, Char.ofNat_toNat]

/-- A control character is one of the first 128 characters. -/
theorem toNat_lt_of_control {c : Char} (h : isControl c = true) : c.toNat < 128 := by
  simp only [isControl, Bool.and_eq_true, Bool.or_eq_true, decide_eq_true_eq, beq_iff_eq] at h
  rcases h.2 with hlow | hdelete
  · omega
  · rw [hdelete]
    decide

/-- A character of a basic text that is shown as it is. -/
theorem readBasic_shown (tripled : Bool) {c : Char} (hmark : c ≠ '"') (hslash : c ≠ '\\')
    (hshown : isPrintable c = true ∨ tripled = true ∧ c = '\n') (rest : List Char) :
    readBasic tripled .text (c :: rest) = prepend c (readBasic tripled .text rest) := by
  have hshown' : (isPrintable c || (tripled && c == '\n')) = true := by
    simpa using hshown
  rw [readBasic]
  · simp [Mark.char, hmark, hslash, hshown']
  all_goals simp

/-- **One character** of a basic text: what it is written as is read back as that character. -/
theorem readBasic_escapeChar (tripled : Bool) (c : Char) (rest : List Char) :
    readBasic tripled .text (escapeChar c ++ rest) = prepend c (readBasic tripled .text rest) := by
  have hslash : ∀ text, readBasic tripled .text ('\\' :: text) = readBasic tripled .escape text := by
    intro text
    simp [readBasic, Mark.char]
  unfold escapeChar
  cases hescape : escape? c with
  | some letter =>
      obtain ⟨hletter, hu, hU⟩ := ofEscape?_of_escape? hescape
      show readBasic tripled .text ('\\' :: letter :: rest) = _
      rw [hslash, readBasic, if_neg hu, if_neg hU, hletter]
  | none =>
      cases hcontrol : isControl c with
      | true =>
          have hsmall := toNat_lt_of_control hcontrol
          have hzero : Text.Hex.value? '0' = some 0 := by decide
          have hhigh := Text.Hex.value?_upper ⟨c.toNat / 16, by omega⟩
          have hlow := Text.Hex.value?_upper ⟨c.toNat % 16, by omega⟩
          have hsum : c.toNat / 16 * 16 + c.toNat % 16 = c.toNat := by omega
          show readBasic tripled .text ('\\' :: 'u' :: '0' :: '0' :: Text.Hex.upper (c.toNat / 16)
            :: Text.Hex.upper (c.toNat % 16) :: rest) = _
          rw [hslash]
          simp [readBasic, hzero, hhigh, hlow, hsum, charOfNumber?_toNat]
      | false =>
          have hmark : c ≠ '"' := by rintro rfl; cases hescape
          have hbackslash : c ≠ '\\' := by rintro rfl; cases hescape
          have hline : c ≠ '\n' := by rintro rfl; cases hescape
          exact readBasic_shown tripled hmark hbackslash
            (Or.inl (isPrintable_of_not_control hcontrol hline)) rest

/-! ## Closing marks -/

section Closing

variable (mark : Mark) {rest : List Char}

/-- What follows the closing marks does not begin with another one. -/
theorem takeWhile_take_of_head (hrest : rest.head? ≠ some mark.char) (count : Nat) :
    (rest.take count).takeWhile (· == mark.char) = [] := by
  cases rest with
  | nil => simp
  | cons c rest =>
      have hc : (c == mark.char) = false := by
        rw [beq_eq_false_iff_ne]
        exact fun heq => hrest (heq ▸ rfl)
      cases count with
      | zero => rfl
      | succ count => rw [List.take_succ_cons, List.takeWhile_cons, hc]; rfl

/-- Two marks at most stand in front of the closing ones, and they are part of the text. -/
theorem closing?_replicate (hrest : rest.head? ≠ some mark.char) {count : Nat} (h : count ≤ 2) :
    closing? mark true (List.replicate (count + 2) mark.char ++ rest)
      = some (List.replicate count mark.char, rest) := by
  have hnone := takeWhile_take_of_head mark hrest
  have hcount : count = 0 ∨ count = 1 ∨ count = 2 := by omega
  rcases hcount with rfl | rfl | rfl
  · simp [closing?, hnone]
  · simp [closing?, hnone, List.replicate]
  · simp [closing?, List.replicate]

/-- **A mark inside a text closes it only at its end**: with what is shown behind it not beginning
with two more marks, it closes the text exactly if nothing but one more mark is shown behind it. -/
theorem closing?_inside (hrest : rest.head? ≠ some mark.char) {shown : List Char}
    (h : ¬ [mark.char, mark.char] <+: shown) :
    closing? mark true (shown ++ (List.replicate 3 mark.char ++ rest))
      = if shown = [] then some ([mark.char], rest)
        else if shown = [mark.char] then some ([mark.char, mark.char], rest) else none := by
  rcases shown with - | ⟨first, - | ⟨second, shown⟩⟩
  · exact closing?_replicate mark hrest (by decide : 1 ≤ 2)
  · by_cases hfirst : first = mark.char
    · subst hfirst
      rw [if_neg (List.cons_ne_nil _ _), if_pos rfl]
      exact closing?_replicate mark hrest (by decide : 2 ≤ 2)
    · simp [closing?, hfirst]
  · have hne : ¬ (first = mark.char ∧ second = mark.char) := by
      rintro ⟨rfl, rfl⟩
      exact h ⟨shown, rfl⟩
    simp [closing?, hne]

end Closing

/-! ## Literal texts -/

theorem readLiteral_line (text rest : List Char) (hmark : '\x27' ∉ text)
    (hshown : ∀ c ∈ text, isPrintable c = true) :
    readLiteral false (text ++ '\x27' :: rest) = some (text, rest) := by
  induction text with
  | nil => simp [readLiteral, Mark.char, closing?]
  | cons c text ih =>
      have hc : c ≠ '\x27' := fun heq => hmark (heq ▸ List.mem_cons_self)
      have hprint := hshown c List.mem_cons_self
      have htext := ih (fun hmem => hmark (List.mem_cons_of_mem _ hmem))
        fun d hd => hshown d (List.mem_cons_of_mem _ hd)
      simp [readLiteral, Mark.char, hc, hprint, htext, prepend]

/-- No three marks stand in a row, and every character may be shown in a text of several lines. -/
theorem readLiteral_lines (text : List Char) {rest : List Char}
    (hrest : rest.head? ≠ some Mark.single.char)
    (hmarks : ¬ List.replicate 3 Mark.single.char <:+: text)
    (hshown : ∀ c ∈ text, isPrintable c = true ∨ c = '\n') :
    readLiteral true (text ++ (List.replicate 3 Mark.single.char ++ rest)) = some (text, rest) := by
  induction text with
  | nil =>
      have hclosing := closing?_replicate .single hrest (by decide : 0 ≤ 2)
      show readLiteral true (Mark.single.char :: (List.replicate 2 Mark.single.char ++ rest)) = _
      rw [readLiteral, if_pos rfl, hclosing]
      rfl
  | cons c text ih =>
      have htext := ih (fun hin => hmarks (hin.trans (List.suffix_cons c text).isInfix))
        fun d hd => hshown d (List.mem_cons_of_mem _ hd)
      rw [List.cons_append, readLiteral]
      split
      · rename_i hc
        subst hc
        have hmore : ¬ [Mark.single.char, Mark.single.char] <+: text := by
          rintro ⟨more, rfl⟩
          exact hmarks ⟨[], more, rfl⟩
        rw [closing?_inside .single hrest hmore, htext]
        by_cases hend : text = []
        · rw [if_pos hend, hend]
        · rw [if_neg hend]
          by_cases hlast : text = [Mark.single.char]
          · rw [if_pos hlast, hlast]
          · rw [if_neg hlast]
            rfl
      · have hprint : (isPrintable c || (true && c == '\n')) = true := by
          simpa using hshown c List.mem_cons_self
        rw [if_pos hprint, htext]
        rfl

/-! ## Basic texts -/

/-- An escaped character begins with no mark and no line end. -/
theorem escapeChar_eq_cons (c : Char) :
    ∃ first more, escapeChar c = first :: more ∧ first ≠ '"' ∧ first ≠ '\n' ∧ first ≠ '\r' := by
  unfold escapeChar
  cases hescape : escape? c with
  | some letter => exact ⟨'\\', [letter], rfl, by decide⟩
  | none =>
      cases hcontrol : isControl c with
      | true => exact ⟨_, _, rfl, by decide⟩
      | false =>
          refine ⟨c, [], rfl, ?_, ?_, ?_⟩
          · rintro rfl
            cases hescape
          · rintro rfl
            cases hescape
          · rintro rfl
            cases hescape

theorem readBasic_line (text rest : List Char) :
    readBasic false .text (text.flatMap escapeChar ++ '"' :: rest) = some (text, rest) := by
  induction text with
  | nil => simp [readBasic, Mark.char, closing?]
  | cons c text ih =>
      rw [List.flatMap_cons, List.append_assoc, readBasic_escapeChar, ih]
      rfl

/-- Behind two marks left as they are, the next one is escaped. -/
theorem head?_escapeLines {run : Nat} (hrun : 2 ≤ run) (text : List Char) :
    (escapeLines run text).head? ≠ some '"' := by
  cases text with
  | nil => simp [escapeLines]
  | cons c text =>
      rw [escapeLines]
      split
      · rename_i hc
        simp [hc]
      · rw [if_neg (by omega)]
        obtain ⟨first, more, heq, hfirst, -⟩ := escapeChar_eq_cons c
        simpa [heq] using hfirst

/-- Behind a mark left as it is, at most one more of them is. -/
theorem not_prefix_escapeLines {run : Nat} (hrun : 1 ≤ run) (text : List Char) :
    ¬ ['"', '"'] <+: escapeLines run text := by
  intro hprefix
  obtain ⟨more, hmore⟩ := hprefix
  cases text with
  | nil => cases hmore
  | cons c text =>
      rw [escapeLines] at hmore
      split at hmore
      · rename_i hc
        rw [hc] at hmore
        cases hmore
      · split at hmore
        · have htail := (List.cons.inj hmore).2
          have hhead : (escapeLines (run + 1) text).head? ≠ some '"' :=
            head?_escapeLines (by omega) text
          apply hhead
          rw [← htail]
          rfl
        · obtain ⟨first, behind, heq, hfirst, -⟩ := escapeChar_eq_cons c
          rw [heq] at hmore
          exact hfirst (List.cons.inj hmore).1.symm

theorem eq_nil_of_escapeLines {run : Nat} {text : List Char} (h : escapeLines run text = []) :
    text = [] := by
  cases text with
  | nil => rfl
  | cons c text =>
      rw [escapeLines] at h
      split at h
      · cases h
      · split at h
        · cases h
        · obtain ⟨first, more, heq, -⟩ := escapeChar_eq_cons c
          rw [heq] at h
          cases h

theorem eq_singleton_of_escapeLines {run : Nat} {text : List Char}
    (h : escapeLines run text = ['"']) : text = ['"'] := by
  cases text with
  | nil => cases h
  | cons c text =>
      rw [escapeLines] at h
      split at h
      · rename_i hc
        rw [hc] at h
        cases h
      · split at h
        · rename_i hc
          rw [eq_nil_of_escapeLines (List.cons.inj h).2, hc.1]
          rfl
        · obtain ⟨first, more, heq, hfirst, -⟩ := escapeChar_eq_cons c
          rw [heq] at h
          exact absurd (List.cons.inj h).1 hfirst

/-- Up to two marks in a row are left as they are, also in front of the closing ones. -/
theorem readBasic_lines (text : List Char) {rest : List Char}
    (hrest : rest.head? ≠ some Mark.double.char) (run : Nat) :
    readBasic true .text (escapeLines run text ++ (List.replicate 3 Mark.double.char ++ rest))
      = some (text, rest) := by
  induction text generalizing run with
  | nil =>
      have hclosing := closing?_replicate .double hrest (by decide : 0 ≤ 2)
      show readBasic true .text (Mark.double.char :: (List.replicate 2 Mark.double.char ++ rest)) = _
      rw [readBasic, if_neg (by simp), if_pos rfl, hclosing]
      · rfl
      all_goals simp
  | cons c text ih =>
      rw [escapeLines]
      split
      · rename_i hc
        subst hc
        rw [List.cons_append, readBasic_shown true (by decide) (by decide) (Or.inr ⟨rfl, rfl⟩), ih]
        rfl
      · split
        · rename_i hmark
          obtain ⟨rfl, hrun⟩ := hmark
          have hmore : ¬ ['"', '"'] <+: escapeLines (run + 1) text :=
            not_prefix_escapeLines (by omega) text
          rw [List.cons_append, readBasic, if_neg (by simp), if_pos rfl,
            closing?_inside .double hrest hmore, ih]
          · by_cases hend : escapeLines (run + 1) text = []
            · rw [if_pos hend, eq_nil_of_escapeLines hend]
            · rw [if_neg hend]
              by_cases hlast : escapeLines (run + 1) text = [Mark.double.char]
              · rw [if_pos hlast, eq_singleton_of_escapeLines hlast]
                rfl
              · rw [if_neg hlast]
                rfl
          all_goals simp
        · rw [List.append_assoc, readBasic_escapeChar, ih]
          rfl

/-! ## The way a text is written -/

/-- A run of marks at the start adds to the one that leads up to it. -/
theorem le_longestRun_of_prefix {mark : Char} {count run : Nat} {text : List Char}
    (h : List.replicate count mark <+: text) : run + count ≤ longestRun mark run text := by
  induction text generalizing count run with
  | nil =>
      have hcount : count = 0 := by simpa using h
      simp [longestRun, hcount]
  | cons c text ih =>
      rw [longestRun]
      cases count with
      | zero =>
          split
          · have hrun : run + 1 + 0 ≤ longestRun mark (run + 1) text := ih List.nil_prefix
            omega
          · exact Nat.le_max_left _ _
      | succ count =>
          rw [List.replicate_succ, List.cons_prefix_cons] at h
          rw [if_pos h.1.symm]
          have hrun : run + 1 + count ≤ longestRun mark (run + 1) text := ih h.2
          omega

/-- **No run of marks is longer than the longest.** -/
theorem le_longestRun_of_infix {mark : Char} {count : Nat} {text : List Char} (run : Nat)
    (h : List.replicate count mark <:+: text) : count ≤ longestRun mark run text := by
  induction text generalizing run with
  | nil =>
      have hcount : count = 0 := by simpa using h
      simp [hcount]
  | cons c text ih =>
      rcases List.infix_cons_iff.mp h with hprefix | hinfix
      · have hrun : run + count ≤ longestRun mark run (c :: text) := le_longestRun_of_prefix hprefix
        omega
      · rw [longestRun]
        split
        · exact ih (run + 1) hinfix
        · exact (ih 0 hinfix).trans (Nat.le_max_right _ _)

/-- A text can be written between single marks if it has no need of escapes. -/
structure Literal (tripled : Bool) (text : List Char) : Prop where
  marks : ¬ List.replicate (if tripled then 3 else 1) Mark.single.char <:+: text
  shown : ∀ c ∈ text, isPrintable c = true ∨ tripled = true ∧ c = '\n'

/-- **Single marks are taken for literal texts only.** -/
theorem literal_of_single {text : List Char} {tripled : Bool}
    (h : Style.of text = ⟨.single, tripled⟩) : Literal tripled text := by
  have hshown : text.any isControl = false → ∀ c ∈ text, c = '\n' ∨ isPrintable c = true := by
    intro hcontrol c hc
    by_cases hline : c = '\n'
    · exact Or.inl hline
    · exact Or.inr (isPrintable_of_not_control (by simpa using (List.any_eq_false.mp hcontrol) c hc)
        hline)
  unfold Style.of at h
  dsimp only at h
  split at h
  · cases h
  · rename_i hcontrol
    have hall := hshown (by simpa using hcontrol)
    split at h
    · cases h
    · split at h
      · rename_i hsingle
        cases h
        simp only [Bool.and_eq_true, decide_eq_true_eq, Bool.not_eq_true'] at hsingle
        refine ⟨?_, ?_⟩
        · intro hinfix
          have hrun := le_longestRun_of_infix 0 hinfix
          rw [hsingle.1] at hrun
          exact absurd hrun (by decide)
        · intro c hc
          rcases hall c hc with rfl | hprint
          · rw [List.contains_iff_mem.mpr hc] at hsingle
            cases hsingle.2
          · exact Or.inl hprint
      · split at h
        · cases h
        · split at h
          · rename_i htwo
            cases h
            refine ⟨?_, ?_⟩
            · intro hinfix
              have hrun : 3 ≤ _ := le_longestRun_of_infix 0 hinfix
              omega
            · intro c hc
              exact (hall c hc).symm.imp_right fun hline => ⟨rfl, hline⟩
          · cases h

/-! ## Whole texts -/

/-- A text that begins with no line end loses nothing. -/
theorem skipFirstLineEnd_of_head {text : List Char} (hline : text.head? ≠ some '\n')
    (hreturn : text.head? ≠ some '\r') : skipFirstLineEnd text = text := by
  cases text with
  | nil => rfl
  | cons c text =>
      have hc : c ≠ '\n' ∧ c ≠ '\r' := by simpa using And.intro hline hreturn
      have hnone : dropLineEnd (c :: text) = none := by
        unfold dropLineEnd
        split
        · rename_i heq
          exact absurd (List.cons.inj heq).1 hc.1
        · rename_i heq
          exact absurd (List.cons.inj heq).1 hc.2
        · rfl
      rw [skipFirstLineEnd, hnone]
      rfl

/-- A line end is put in front of a text of several lines, and passed over. -/
theorem skipFirstLineEnd_started {text shown : List Char}
    (hshown : '\n' ∉ text → shown.head? ≠ some '\n' ∧ shown.head? ≠ some '\r') :
    skipFirstLineEnd (if text.contains '\n' then '\n' :: shown else shown) = shown := by
  split
  · rfl
  · rename_i hline
    obtain ⟨hnewline, hreturn⟩ := hshown (by simpa using hline)
    exact skipFirstLineEnd_of_head hnewline hreturn

variable {rest : List Char}

theorem readText_basic_line (text : List Char) (hrest : rest.head? ≠ some '"') :
    readText ('"' :: (text.flatMap escapeChar ++ '"' :: rest)) = some (text, rest) := by
  -- a mark right behind the opening one is the closing one, and no third one follows it
  have hone : ∀ more, text.flatMap escapeChar ++ '"' :: rest ≠ '"' :: '"' :: more := by
    intro more heq
    cases text with
    | nil => exact hrest ((List.cons.inj heq).2 ▸ rfl)
    | cons c text =>
        obtain ⟨first, behind, hfirst, hmark, -⟩ := escapeChar_eq_cons c
        rw [List.flatMap_cons, hfirst] at heq
        exact hmark (List.cons.inj heq).1
  rw [readText]
  · exact readBasic_line text rest
  · exact hone

theorem readText_literal_line {text : List Char} (h : Literal false text)
    (hrest : rest.head? ≠ some '\x27') :
    readText ('\x27' :: (text ++ '\x27' :: rest)) = some (text, rest) := by
  have hmark : '\x27' ∉ text := by
    intro hmem
    obtain ⟨front, behind, rfl⟩ := List.append_of_mem hmem
    exact h.marks ⟨front, behind, by simp [Mark.char]⟩
  have hone : ∀ more, text ++ '\x27' :: rest ≠ '\x27' :: '\x27' :: more := by
    intro more heq
    cases text with
    | nil => exact hrest ((List.cons.inj heq).2 ▸ rfl)
    | cons c text => exact hmark ((List.cons.inj heq).1 ▸ List.mem_cons_self)
  rw [readText]
  · exact readLiteral_line text rest hmark fun c hc => (h.shown c hc).resolve_right (by simp)
  · exact hone

theorem readText_basic_lines (text : List Char) (hrest : rest.head? ≠ some '"') :
    readText ('"' :: '"' :: '"' ::
      ((if text.contains '\n' then '\n' :: escapeLines 0 text else escapeLines 0 text)
        ++ (List.replicate 3 '"' ++ rest))) = some (text, rest) := by
  have hstart : skipFirstLineEnd
      ((if text.contains '\n' then '\n' :: escapeLines 0 text else escapeLines 0 text)
        ++ (List.replicate 3 '"' ++ rest)) = escapeLines 0 text ++ (List.replicate 3 '"' ++ rest) := by
    rw [apply_ite (· ++ (List.replicate 3 '"' ++ rest))]
    apply skipFirstLineEnd_started
    intro hline
    cases text with
    | nil => exact ⟨by simp [escapeLines], by simp [escapeLines]⟩
    | cons c text =>
        have hc : c ≠ '\n' := fun heq => hline (heq ▸ List.mem_cons_self)
        rw [escapeLines, if_neg hc]
        split
        · rename_i hmark
          rw [hmark.1]
          exact ⟨by simp [Mark.char], by simp [Mark.char]⟩
        · obtain ⟨first, more, heq, -, hnewline, hreturn⟩ := escapeChar_eq_cons c
          rw [heq]
          simpa using And.intro hnewline hreturn
  rw [readText, hstart]
  exact readBasic_lines text hrest 0

theorem readText_literal_lines {text : List Char} (h : Literal true text)
    (hrest : rest.head? ≠ some '\x27') :
    readText ('\x27' :: '\x27' :: '\x27' ::
      ((if text.contains '\n' then '\n' :: text else text)
        ++ (List.replicate 3 '\x27' ++ rest))) = some (text, rest) := by
  have hstart : skipFirstLineEnd ((if text.contains '\n' then '\n' :: text else text)
        ++ (List.replicate 3 '\x27' ++ rest)) = text ++ (List.replicate 3 '\x27' ++ rest) := by
    rw [apply_ite (· ++ (List.replicate 3 '\x27' ++ rest))]
    apply skipFirstLineEnd_started
    intro hline
    cases text with
    | nil => exact ⟨by simp, by simp⟩
    | cons c text =>
        have hc : c ≠ '\n' := fun heq => hline (heq ▸ List.mem_cons_self)
        refine ⟨by simpa using hc, ?_⟩
        -- a carriage return is nothing a text may show
        rintro ⟨⟩
        rcases h.shown '\r' List.mem_cons_self with hprint | ⟨-, heq⟩
        · exact absurd hprint (by decide)
        · exact hc heq
  rw [readText, hstart]
  exact readLiteral_lines text hrest h.marks fun c hc => (h.shown c hc).imp_right And.right

/-- **A text is read back from between its quotes**, whichever way it was written and whatever
follows the closing ones but another quote. -/
theorem readText_write (text : List Char) (hdouble : rest.head? ≠ some '"')
    (hsingle : rest.head? ≠ some '\x27') :
    readText (write text ++ rest) = some (text, rest) := by
  unfold write
  dsimp only
  rcases hstyle : Style.of text with ⟨_ | _, _ | _⟩
  · have hread := readText_basic_line text hdouble
    simpa [Style.marks, Style.body, Mark.char] using hread
  · have hread := readText_basic_lines text hdouble
    simpa [Style.marks, Style.body, Mark.char, List.replicate] using hread
  · have hread := readText_literal_line (literal_of_single hstyle) hsingle
    simpa [Style.marks, Style.body, Mark.char] using hread
  · have hread := readText_literal_lines (literal_of_single hstyle) hsingle
    simpa [Style.marks, Style.body, Mark.char, List.replicate] using hread

end Golden.Toml
