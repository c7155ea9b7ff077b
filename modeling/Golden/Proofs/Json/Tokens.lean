import Golden.Json.Parser
import Golden.Json.Printer
import Golden.Proofs.Text.Scanned

/-!
# Golden.Proofs.Json.Tokens — strings and numbers read back

Two kinds of tokens carry everything a value has to say.

A **string** is written character by character, and every character is read back as one item
(`scan_escapeChar`): itself where it stands as it is or behind a letter, and its number where it is
written by its number.  None of the numbers written is half of a surrogate pair, so the items spell
the text again (`textOf?_map_item`), and reading ends at the closing quote and nowhere before it
(`readString_quote`).

A **number** ends where its text ends, unless what follows could go on with it: a digit, a point or
the mark of an exponent.  Each part of a number is scanned the same way whatever else follows
(`EndsNumber`, `Text.Steady`), so a text that is one spelled number is read back from in front of
any other text (`scanNumber_append`).  How a double is spelled is of no consequence here.
-/

namespace Golden.Json

open Text (Steady)

/-! ## Strings -/

/-- The item a written character is read back as. -/
def itemOf (c : Char) : Item :=
  if (shortEscape? c).isNone ∧ c.toNat < 0x20 then .unit c.toNat else .char c

theorem ofShortEscape?_of_shortEscape? {c letter : Char} (h : shortEscape? c = some letter) :
    ofShortEscape? letter = some c ∧ letter ≠ 'u' := by
  unfold shortEscape? at h
  split at h <;> cases h <;> exact ⟨rfl, by decide⟩

/-- A number below 256, its first two digits zeros. -/
theorem unitValue?_hex {n : Nat} (h : n < 256) :
    unitValue? '0' '0' (Text.Hex.lower (n / 16)) (Text.Hex.lower (n % 16)) = some n := by
  have hzero : Text.Hex.value? '0' = some 0 := by decide
  have hhigh := Text.Hex.value?_lower ⟨n / 16, by omega⟩
  have hlow := Text.Hex.value?_lower ⟨n % 16, by omega⟩
  have hsum : n / 16 * 16 + n % 16 = n := by omega
  simp only [unitValue?, hzero, hhigh, hlow, Option.bind_eq_bind, Option.bind_some, Nat.zero_mul,
    Nat.zero_add, hsum]
  rfl

/-- A character that is written as it is. -/
theorem scan_cons {c : Char} (hshort : shortEscape? c = none) (hcontrol : ¬ c.toNat < 0x20)
    (rest : List Char) :
    scan (c :: rest) = (scan rest).map fun (items, later) => (.char c :: items, later) := by
  have hquote : c ≠ '"' := by rintro rfl; cases hshort
  have hslash : c ≠ '\\' := by rintro rfl; cases hshort
  have hplain : ¬ (c.toNat < 0x20 ∨ c = '\\') := by simp [hcontrol, hslash]
  rw [scan]
  · rw [if_neg hplain]
    cases scan rest <;> rfl
  · exact hquote
  · intro _ _ _ _ _ hc _
    exact hslash hc
  · intro _ _ hc _
    exact hslash hc

/-- **One character**: what it is written as is read back as one item. -/
theorem scan_escapeChar (c : Char) (rest : List Char) :
    scan (escapeChar c ++ rest)
      = (scan rest).map fun (items, later) => (itemOf c :: items, later) := by
  unfold escapeChar itemOf
  cases hshort : shortEscape? c with
  | some letter =>
      obtain ⟨hletter, hu⟩ := ofShortEscape?_of_shortEscape? hshort
      have hscan : scan ('\\' :: letter :: rest)
          = (scan rest).map fun (items, later) => (.char c :: items, later) := by
        rw [scan, hletter]
        · cases scan rest <;> rfl
        · intro _ _ _ _ _ hc _
          exact hu hc
      simpa using hscan
  | none =>
      by_cases hcontrol : c.toNat < 0x20
      · have hunit := unitValue?_hex (n := c.toNat) (by omega)
        simp only [hcontrol, if_true, List.cons_append, List.nil_append, scan, hunit,
          Option.isNone_none, and_self]
        cases scan rest <;> rfl
      · simpa [hcontrol] using scan_cons hshort hcontrol rest

theorem scan_flatMap_escapeChar (text rest : List Char) :
    scan (text.flatMap escapeChar ++ '"' :: rest) = some (text.map itemOf, rest) := by
  induction text with
  | nil => rfl
  | cons c text ih =>
      rw [List.flatMap_cons, List.append_assoc, scan_escapeChar, ih]
      rfl

/-- A number that is no half of a surrogate pair is a character of its own, whatever follows. -/
theorem textOf?_unit {n : Nat} (hhigh : isHighSurrogate n = false)
    (hlow : isLowSurrogate n = false) (rest : List Item) :
    textOf? (.unit n :: rest) = (textOf? rest).map (Char.ofNat n :: ·) := by
  cases rest with
  | nil => simp [textOf?, hhigh, hlow]
  | cons next rest =>
      cases next with
      | char c => simp [textOf?, hhigh, hlow]
      | unit m => simp [textOf?, hhigh, hlow]

/-- The items of a written text spell the text. -/
theorem textOf?_map_itemOf (text : List Char) : textOf? (text.map itemOf) = some text := by
  induction text with
  | nil => rfl
  | cons c text ih =>
      rw [List.map_cons, itemOf]
      split
      · rename_i hunit
        have hhigh : isHighSurrogate c.toNat = false := by
          simp only [isHighSurrogate, Bool.and_eq_false_iff, decide_eq_false_iff_not]
          omega
        have hlow : isLowSurrogate c.toNat = false := by
          simp only [isLowSurrogate, Bool.and_eq_false_iff, decide_eq_false_iff_not]
          omega
        rw [textOf?_unit hhigh hlow, ih, Char.ofNat_toNat, Option.map_some]
      · rw [textOf?, ih, Option.map_some]

/-- **A string is read back** up to its closing quote, whatever follows; one that spells no text is
read back as such. -/
theorem readString_printString (text : Option String) (rest : List Char) :
    ∃ body, printString text ++ rest = '"' :: body ∧ readString body = some (text, rest) := by
  cases text with
  | some text =>
      refine ⟨text.toList.flatMap escapeChar ++ '"' :: rest, ?_, ?_⟩
      · show ('"' :: text.toList.flatMap escapeChar ++ ['"']) ++ rest = _
        rw [List.append_assoc, List.cons_append, List.singleton_append]
      · rw [readString, scan_flatMap_escapeChar]
        simp [textOf?_map_itemOf]
  | none =>
      refine ⟨"\\ud800\"".toList ++ rest, rfl, ?_⟩
      have hunit : unitValue? 'd' '8' '0' '0' = some 0xD800 := by decide
      show readString ('\\' :: 'u' :: 'd' :: '8' :: '0' :: '0' :: '"' :: rest) = _
      simp only [readString, scan, hunit]
      rfl

/-! ## Numbers -/

/-- A character that a number can go on with. -/
def continuesNumber (c : Char) : Bool := Decimal.isDigit c || c == '.' || c == 'e' || c == 'E'

/-- A text with which no number in front of it goes on. -/
def EndsNumber (rest : List Char) : Prop := ∀ c ∈ rest.head?, continuesNumber c = false

theorem endsNumber_nil : EndsNumber [] := by
  intro c hc
  cases hc

theorem endsNumber_cons {c : Char} (h : continuesNumber c = false) (rest : List Char) :
    EndsNumber (c :: rest) := by
  intro d hd
  cases hd
  exact h

variable {rest : List Char}

/-- Digits are not continued by what ends a number. -/
theorem EndsNumber.takeWhile_isDigit (h : EndsNumber rest) (text : List Char) :
    (text ++ rest).takeWhile Decimal.isDigit = text.takeWhile Decimal.isDigit
      ∧ (text ++ rest).dropWhile Decimal.isDigit = text.dropWhile Decimal.isDigit ++ rest := by
  induction text with
  | nil =>
      cases rest with
      | nil => exact ⟨rfl, rfl⟩
      | cons c rest =>
          have hc : Decimal.isDigit c = false := by
            have hends := h c rfl
            simp only [continuesNumber, Bool.or_eq_false_iff] at hends
            exact hends.1.1.1
          simp [hc]
  | cons c text ih =>
      obtain ⟨htake, hdrop⟩ := ih
      cases hc : Decimal.isDigit c <;> simp [hc, htake, hdrop]

theorem steady_scanDigits : Steady EndsNumber scanDigits := by
  refine ⟨?_⟩
  intro text later rest digits hrest h
  obtain ⟨htake, hdrop⟩ := hrest.takeWhile_isDigit text
  unfold scanDigits at h ⊢
  rw [htake, hdrop]
  split at h
  · cases h
  · rename_i hsome
    cases h
    rfl

/-- A head that ends a number is no point and no mark of an exponent. -/
theorem EndsNumber.head_ne {c : Char} (h : EndsNumber (c :: rest)) :
    Decimal.isDigit c = false ∧ c ≠ '.' ∧ c ≠ 'e' ∧ c ≠ 'E' := by
  have hends := h c rfl
  simp only [continuesNumber, Bool.or_eq_false_iff, beq_eq_false_iff_ne] at hends
  exact ⟨hends.1.1.1, hends.1.1.2, hends.1.2, hends.2⟩

theorem steady_scanWhole : Steady EndsNumber scanWhole := by
  refine ⟨?_⟩
  intro text later rest whole hrest h
  obtain ⟨htake, hdrop⟩ := hrest.takeWhile_isDigit text
  unfold scanWhole at h
  split at h
  · rename_i behind
    cases behind with
    | nil =>
        cases h
        cases rest with
        | nil => rfl
        | cons c rest => simp [scanWhole, hrest.head_ne.1]
    | cons c behind =>
        dsimp only at h
        split at h
        · cases h
        · rename_i hc
          cases h
          simp [scanWhole, hc]
  · rename_i hzero
    cases hdigits : text.takeWhile Decimal.isDigit with
    | nil =>
        rw [hdigits] at h
        cases h
    | cons d digits =>
        rw [hdigits] at h htake
        cases h
        -- the text is not empty, so that its first character decides what is scanned
        cases text with
        | nil => cases hdigits
        | cons c text =>
            have hc : c ≠ '0' := fun hc => hzero text (hc ▸ rfl)
            rw [List.cons_append] at htake hdrop ⊢
            rw [scanWhole]
            · rw [htake, hdrop]
            · intro _ heq
              exact hc (List.cons.inj heq).1

theorem steady_scanFraction : Steady EndsNumber scanFraction := by
  refine ⟨?_⟩
  intro text later rest fraction hrest h
  unfold scanFraction at h
  split at h
  · rename_i behind
    obtain ⟨⟨digits, left⟩, hdigits, hpair⟩ := Option.map_eq_some_iff.mp h
    cases hpair
    show scanFraction ('.' :: (behind ++ rest)) = _
    simp only [scanFraction, steady_scanDigits.append hrest hdigits, Option.map_some]
  · rename_i hpoint
    cases h
    cases text with
    | nil =>
        cases rest with
        | nil => rfl
        | cons c rest =>
            have hc := hrest.head_ne.2.1
            unfold scanFraction
            split
            · rename_i heq
              exact absurd (List.cons.inj heq).1 hc
            · rfl
    | cons c text =>
        unfold scanFraction
        split
        · rename_i heq
          exact absurd (List.cons.inj heq).1 fun hc => hpoint text (hc ▸ rfl)
        · rfl

theorem steady_scanExponentDigits (negative : Bool) :
    Steady EndsNumber (scanExponentDigits negative) :=
  steady_scanDigits.map fun digits =>
    let size : Int := Decimal.valueOfDigits digits
    if negative then -size else size

/-- The digits of an exponent with a sign or without. -/
theorem steady_signedExponent : Steady EndsNumber fun text => match text with
    | '+' :: digits => scanExponentDigits false digits
    | '-' :: digits => scanExponentDigits true digits
    | digits => scanExponentDigits false digits := by
  refine ⟨?_⟩
  intro text later rest exponent hrest h
  split at h
  · exact (steady_scanExponentDigits false).append hrest h
  · exact (steady_scanExponentDigits true).append hrest h
  · rename_i hplus hminus
    cases text with
    | nil => cases h
    | cons c text =>
        have hsame := (steady_scanExponentDigits false).append hrest h
        rw [List.cons_append] at hsame ⊢
        split
        · rename_i heq
          exact absurd ((List.cons.inj heq).1 ▸ rfl) (hplus text)
        · rename_i heq
          exact absurd ((List.cons.inj heq).1 ▸ rfl) (hminus text)
        · exact hsame

theorem steady_scanExponent : Steady EndsNumber scanExponent := by
  refine ⟨?_⟩
  intro text later rest exponent hrest h
  unfold scanExponent at h
  split at h
  · exact (steady_signedExponent.map some).append hrest h
  · exact (steady_signedExponent.map some).append hrest h
  · rename_i hlower hupper
    cases h
    -- what ends the number has no mark either
    have hmark : ∀ behind, text ++ rest ≠ 'e' :: behind ∧ text ++ rest ≠ 'E' :: behind := by
      intro behind
      cases text with
      | nil =>
          constructor
          · rintro rfl
            exact hrest.head_ne.2.2.1 rfl
          · rintro rfl
            exact hrest.head_ne.2.2.2 rfl
      | cons c text =>
          constructor
          · intro heq
            exact hlower text ((List.cons.inj heq).1 ▸ rfl)
          · intro heq
            exact hupper text ((List.cons.inj heq).1 ▸ rfl)
    rw [scanExponent]
    · exact fun behind heq => (hmark behind).1 heq
    · exact fun behind heq => (hmark behind).2 heq

/-- A number behind its sign. -/
def scanUnsigned (negative : Bool) (text : List Char) : Option (Spelling × List Char) := do
  let (whole, rest) ← scanWhole text
  let (fraction, rest) ← scanFraction rest
  let (exponent, rest) ← scanExponent rest
  return (⟨negative, whole, fraction, exponent⟩, rest)

theorem steady_scanUnsigned (negative : Bool) : Steady EndsNumber (scanUnsigned negative) :=
  steady_scanWhole.bind fun _ => steady_scanFraction.bind fun _ =>
    steady_scanExponent.bind fun _ => Steady.ofPart _

theorem scanSpelling_of_ne {c : Char} (h : c ≠ '-') (text : List Char) :
    scanSpelling (c :: text) = scanUnsigned false (c :: text) := by
  unfold scanSpelling
  split
  · rename_i heq
    split at heq
    · rename_i hc
      exact absurd (List.cons.inj hc).1 h
    · cases heq
      rfl

theorem steady_scanSpelling : Steady EndsNumber scanSpelling := by
  refine ⟨?_⟩
  intro text later rest spelling hrest h
  cases text with
  | nil => cases h
  | cons c text =>
      by_cases hc : c = '-'
      · subst hc
        exact (steady_scanUnsigned true).append hrest h
      · rw [List.cons_append, scanSpelling_of_ne hc]
        rw [scanSpelling_of_ne hc] at h
        exact (steady_scanUnsigned false).append hrest h

/-- **A spelled number is read back** from in front of any text that does not go on with it. -/
theorem scanNumber_append {literal rest : List Char} {s : Spelling}
    (h : scanSpelling literal = some (s, [])) (hrest : EndsNumber rest) :
    scanNumber (literal ++ rest) = some (literal, rest) := by
  have hscan := steady_scanSpelling.append hrest h
  rw [List.nil_append] at hscan
  have hlength : (literal ++ rest).length - rest.length = literal.length := by
    rw [List.length_append]
    omega
  rw [scanNumber, hscan, Option.map_some]
  dsimp only
  rw [hlength, List.take_left' rfl]

/-- A spelled number starts with its sign or a digit. -/
theorem head_of_scanSpelling {literal rest : List Char} {s : Spelling}
    (h : scanSpelling literal = some (s, rest)) :
    ∃ c behind, literal = c :: behind ∧ (c = '-' ∨ Decimal.isDigit c = true) := by
  cases literal with
  | nil => cases h
  | cons c behind =>
      refine ⟨c, behind, rfl, ?_⟩
      by_cases hminus : c = '-'
      · exact Or.inl hminus
      · right
        rw [scanSpelling_of_ne hminus] at h
        obtain ⟨⟨whole, left⟩, hwhole, -⟩ := Option.bind_eq_some_iff.mp h
        by_cases hzero : c = '0'
        · rw [hzero]
          rfl
        · cases hdigit : Decimal.isDigit c with
          | true => rfl
          | false =>
              rw [scanWhole] at hwhole
              · rw [List.takeWhile_cons, hdigit] at hwhole
                cases hwhole
              · intro _ heq
                exact hzero (List.cons.inj heq).1

end Golden.Json
