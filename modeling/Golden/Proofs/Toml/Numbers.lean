import Golden.Proofs.Text.Scanned
import Golden.Toml.Parser

/-!
# Golden.Proofs.Toml.Numbers — a number at the end of its line

A value ends where the line does, but what reads a number is not told where that is: it goes on as
long as characters fit.  No character of a number is a line end, so nothing changes if one follows
(`EndsLine`, `steady_readNumber`).

Dates and times start with digits, as numbers do, and are looked for first.  Behind the first four
digits of a date stands a hyphen, behind the first two of a time a colon, and a number would have
ended in front of either (`head_of_readNumber_digits`).  So **what a number takes up to the end of
its line is no date and no time** (`readScalar_number`).
-/

namespace Golden.Toml

open Decimal (isDigit)
open Text (Steady)

/-- A text in which the line has ended. -/
def EndsLine (rest : List Char) : Prop := ∃ later, rest = '\n' :: later

theorem endsLine_cons (later : List Char) : EndsLine ('\n' :: later) := ⟨later, rfl⟩

/-! ## Parts of a number -/

theorem steady_moreDigits {isOne : Char → Bool} (hline : isOne '\n' = false) :
    Steady EndsLine (moreDigits isOne) := by
  refine ⟨?_⟩
  rintro text later _ digits ⟨next, rfl⟩ h
  induction text generalizing digits with
  | nil =>
      cases h
      simp [moreDigits, hline]
  | cons c text ih =>
      rw [List.cons_append, moreDigits]
      rw [moreDigits] at h
      split at h
      · rename_i hone
        obtain ⟨⟨found, behind⟩, hfound, hpair⟩ := Option.map_eq_some_iff.mp h
        cases hpair
        rw [if_pos hone, ih hfound]
        rfl
      · rename_i hone
        rw [if_neg hone]
        split at h
        · rename_i hunder
          split at h
          · rename_i hdigit
            -- an underscore is followed by a digit of the text itself
            have hhead : (text ++ '\n' :: next).head?.any isOne = true := by
              cases text with
              | nil => cases hdigit
              | cons d text => exact hdigit
            rw [if_pos hunder, if_pos hhead]
            exact ih h
          · cases h
        · rename_i hunder
          cases h
          rw [if_neg hunder]
          rfl

theorem steady_someDigits {isOne : Char → Bool} (hline : isOne '\n' = false) :
    Steady EndsLine (someDigits isOne) := by
  refine ⟨?_⟩
  intro text later rest digits hrest h
  cases text with
  | nil => cases h
  | cons c text =>
      rw [List.cons_append, someDigits]
      rw [someDigits] at h
      split at h
      · rename_i hone
        rw [if_pos hone]
        exact ((steady_moreDigits hline).map (c :: ·)).append hrest h
      · cases h

theorem steady_wholeDigits : Steady EndsLine wholeDigits := by
  refine ⟨?_⟩
  intro text later rest digits hrest h
  unfold wholeDigits at h
  split at h
  · cases h
    rfl
  · rename_i hzero
    have hdigits : Steady EndsLine (someDigits isDigit) := steady_someDigits rfl
    have hsame := hdigits.append hrest h
    cases text with
    | nil => cases h
    | cons c text =>
        rw [wholeDigits]
        · exact hsame
        · intro behind heq
          exact hzero text ((List.cons.inj heq).1 ▸ rfl)

theorem steady_takeSign : Steady EndsLine fun text => some (takeSign text) := by
  refine ⟨?_⟩
  rintro text later _ negative ⟨next, rfl⟩ h
  have h := Option.some.inj h
  cases text with
  | nil =>
      cases h
      rfl
  | cons c text =>
      unfold takeSign at h
      split at h
      · rename_i heq
        cases heq
        cases h
        rfl
      · rename_i heq
        cases heq
        cases h
        rfl
      · rename_i hplus hminus
        cases h
        rw [List.cons_append, takeSign]
        · intro behind heq
          exact hplus text ((List.cons.inj heq).1 ▸ rfl)
        · intro behind heq
          exact hminus text ((List.cons.inj heq).1 ▸ rfl)

theorem steady_readExponent : Steady EndsLine readExponent := by
  have hdigits : Steady EndsLine (someDigits isDigit) := steady_someDigits rfl
  exact steady_takeSign.bind fun negative => hdigits.bind fun digits =>
    Steady.ofPart (signed negative (Decimal.valueOfDigits digits))

/-- What makes a number of its parts may refuse it, but does not look at the text. -/
theorem steady_value (value : Option Scalar) :
    Steady EndsLine fun text => value.bind fun s => some (s, text) := by
  cases value with
  | none =>
      refine ⟨?_⟩
      intro text later rest s _ h
      cases h
  | some s => exact Steady.ofPart s

/-- An exponent, if its mark is there. -/
def optionalExponent (text : List Char) : Option (Int × List Char) :=
  if text.head?.any isExponentMark then readExponent (text.drop 1) else some (0, text)

theorem steady_optionalExponent : Steady EndsLine optionalExponent := by
  refine ⟨?_⟩
  intro text later rest exponent hrest h
  unfold optionalExponent at h ⊢
  cases text with
  | nil =>
      obtain ⟨next, rfl⟩ := hrest
      cases h
      rfl
  | cons c text =>
      rw [List.head?_cons, Option.any_some] at h
      rw [List.cons_append, List.head?_cons, Option.any_some]
      split at h
      · rename_i hmark
        rw [if_pos hmark]
        exact steady_readExponent.append hrest h
      · rename_i hmark
        cases h
        rw [if_neg hmark]
        rfl

/-! ## Numbers -/

section Tail

variable (negative : Bool) (whole : List Char)

/-- What stands behind the point of a number. -/
def readPlaces (text : List Char) : Option (Scalar × List Char) :=
  (someDigits isDigit text).bind fun (places, rest) =>
    (optionalExponent rest).bind fun (exponent, rest) =>
      (float? (Decimal.ofScientific negative (Decimal.valueOfDigits (whole ++ places))
        (exponent - places.length))).bind fun s => some (s, rest)

theorem steady_readPlaces : Steady EndsLine (readPlaces negative whole) :=
  (steady_someDigits rfl).bind fun places => steady_optionalExponent.bind fun exponent =>
    steady_value (float? (Decimal.ofScientific negative (Decimal.valueOfDigits (whole ++ places))
      (exponent - places.length)))

theorem readTail_point (rest : List Char) :
    readTail negative whole ('.' :: rest) = readPlaces negative whole rest := by
  rw [readTail, if_pos rfl, readPlaces]
  cases someDigits isDigit rest with
  | none => rfl
  | some places =>
      unfold optionalExponent
      dsimp only [Option.bind_eq_bind, Option.bind_some]
      split <;> rfl

theorem steady_readTail : Steady EndsLine (readTail negative whole) := by
  refine ⟨?_⟩
  intro text later rest s hrest h
  cases text with
  | nil =>
      obtain ⟨next, rfl⟩ := hrest
      obtain ⟨value, hvalue, hpair⟩ := Option.map_eq_some_iff.mp h
      cases hpair
      show readTail negative whole ('\n' :: next) = some (s, '\n' :: next)
      rw [readTail, if_neg (by decide), if_neg (by decide), hvalue]
      rfl
  | cons c text =>
      by_cases hpoint : c = '.'
      · subst hpoint
        rw [readTail_point] at h
        rw [List.cons_append, readTail_point]
        exact (steady_readPlaces negative whole).append hrest h
      · rw [readTail, if_neg hpoint] at h
        rw [List.cons_append, readTail, if_neg hpoint]
        split at h
        · rename_i hmark
          rw [if_pos hmark]
          have hsteady := steady_readExponent.bind fun exponent => steady_value
            (float? (Decimal.ofScientific negative (Decimal.valueOfDigits whole) exponent))
          exact hsteady.append hrest h
        · rename_i hmark
          rw [if_neg hmark]
          obtain ⟨n, hn, hpair⟩ := Option.bind_eq_some_iff.mp h
          cases hpair
          rw [hn]
          rfl

end Tail

/-- Digits and what belongs to them, behind a sign. -/
def readUnsigned (negative : Bool) (text : List Char) : Option (Scalar × List Char) :=
  (wholeDigits text).bind fun (whole, rest) => readTail negative whole rest

theorem steady_readUnsigned (negative : Bool) : Steady EndsLine (readUnsigned negative) :=
  steady_wholeDigits.bind fun whole => steady_readTail negative whole

/-- Whole digits begin with a digit. -/
theorem head_of_wholeDigits {text digits later : List Char}
    (h : wholeDigits text = some (digits, later)) :
    ∃ d more, text = d :: more ∧ isDigit d = true := by
  unfold wholeDigits at h
  split at h
  · exact ⟨'0', _, rfl, rfl⟩
  · cases text with
    | nil => cases h
    | cons c text =>
        refine ⟨c, text, rfl, ?_⟩
        by_contra hdigit
        rw [someDigits, if_neg hdigit] at h
        cases h

/-- Behind a sign, digits are no word. -/
theorem readDecimal_of_digit {text body : List Char} {negative : Bool} {d : Char}
    (hsign : takeSign text = (negative, d :: body)) (hd : isDigit d = true) :
    readDecimal text = readUnsigned negative (d :: body) := by
  unfold readDecimal
  rw [hsign]
  split
  · rename_i heq
    cases heq
    cases hd
  · rename_i heq
    cases heq
    cases hd
  · rename_i heq
    cases heq
    rfl

theorem steady_readDecimal : Steady EndsLine readDecimal := by
  refine ⟨?_⟩
  intro text later rest s hrest h
  have hsign : ∀ {negative body}, takeSign text = (negative, body) →
      takeSign (text ++ rest) = (negative, body ++ rest) := fun heq =>
    Option.some.inj (steady_takeSign.append hrest (congrArg some heq))
  unfold readDecimal at h
  split at h
  · rename_i negative behind heq
    cases h
    unfold readDecimal
    rw [hsign heq]
    rfl
  · rename_i negative behind heq
    cases h
    unfold readDecimal
    rw [hsign heq]
    rfl
  · rename_i negative body _ _ heq
    obtain ⟨⟨digits, behind⟩, hdigits, hbehind⟩ := Option.bind_eq_some_iff.mp h
    obtain ⟨d, more, rfl, hd⟩ := head_of_wholeDigits hdigits
    rw [readDecimal_of_digit (hsign heq) hd]
    exact (steady_readUnsigned negative).append hrest h

theorem steady_readToBase (base : Nat) : Steady EndsLine (readToBase base) := by
  have hline : isDigitOf base '\n' = false := rfl
  refine ⟨?_⟩
  intro text later rest s hrest h
  obtain ⟨⟨digits, behind⟩, hdigits, hvalue⟩ := Option.bind_eq_some_iff.mp h
  obtain ⟨value, hinteger, hpair⟩ := Option.bind_eq_some_iff.mp hvalue
  cases hpair
  rw [readToBase, (steady_someDigits hline).append hrest hdigits, Option.bind_eq_bind,
    Option.bind_some]
  dsimp only
  rw [hinteger]
  rfl

/-- A mark of a base is told by two characters, and a line end is none of them. -/
theorem readNumber_of_unmarked {text : List Char}
    (h : ∀ c behind, text = '0' :: c :: behind → c ≠ 'x' ∧ c ≠ 'o' ∧ c ≠ 'b') :
    readNumber text = readDecimal text := by
  rw [readNumber]
  · intro behind heq
    exact (h _ _ heq).1 rfl
  · intro behind heq
    exact (h _ _ heq).2.1 rfl
  · intro behind heq
    exact (h _ _ heq).2.2 rfl

/-- **A number is read the same way in front of a line end.** -/
theorem steady_readNumber : Steady EndsLine readNumber := by
  refine ⟨?_⟩
  intro text later rest s hrest h
  unfold readNumber at h
  split at h
  · exact (steady_readToBase 16).append hrest h
  · exact (steady_readToBase 8).append hrest h
  · exact (steady_readToBase 2).append hrest h
  · rename_i hhex hoctal hbinary
    rw [readNumber_of_unmarked]
    · exact steady_readDecimal.append hrest h
    · intro c behind heq
      obtain ⟨next, rfl⟩ := hrest
      rcases text with - | ⟨first, - | ⟨second, text⟩⟩
      · cases h
      · cases heq
        decide
      · cases heq
        refine ⟨?_, ?_, ?_⟩
        · rintro rfl
          exact hhex text rfl
        · rintro rfl
          exact hoctal text rfl
        · rintro rfl
          exact hbinary text rfl

/-! ## No date and no time -/

/-- A whole number ends in front of what is no part of it. -/
theorem later_of_readTail {negative : Bool} {whole behind later : List Char} {c : Char} {s : Scalar}
    (hpoint : c ≠ '.') (hmark : isExponentMark c = false)
    (h : readTail negative whole (c :: behind) = some (s, later)) : later = c :: behind := by
  rw [readTail, if_neg hpoint, if_neg (by simp [hmark])] at h
  obtain ⟨value, -, hpair⟩ := Option.bind_eq_some_iff.mp h
  cases hpair
  rfl

theorem moreDigits_append {digits behind : List Char} {c : Char}
    (hdigits : ∀ d ∈ digits, isDigit d = true) (hc : isDigit c = false) (hunder : c ≠ '_') :
    moreDigits isDigit (digits ++ c :: behind) = some (digits, c :: behind) := by
  induction digits with
  | nil => simp [moreDigits, hc, hunder]
  | cons d digits ih =>
      have htail := ih fun e he => hdigits e (List.mem_cons_of_mem _ he)
      simp [moreDigits, hdigits d List.mem_cons_self, htail]

theorem takeSign_digit {d : Char} (hd : isDigit d = true) (text : List Char) :
    takeSign (d :: text) = (false, d :: text) := by
  rw [takeSign]
  · intro behind heq
    cases heq
    cases hd
  · intro behind heq
    cases heq
    cases hd

/-- What neither a mark of a base nor any part of a decimal number is. -/
structure Foreign (c : Char) : Prop where
  base : c ≠ 'x' ∧ c ≠ 'o' ∧ c ≠ 'b'
  point : c ≠ '.'
  exponent : isExponentMark c = false
  line : c ≠ '\n'

theorem foreign_of_digit {d : Char} (hd : isDigit d = true) : Foreign d := by
  have hne : ∀ c, isDigit c = false → d ≠ c := by
    rintro c hc rfl
    rw [hc] at hd
    cases hd
  refine ⟨⟨hne _ rfl, hne _ rfl, hne _ rfl⟩, hne _ rfl, ?_, hne _ rfl⟩
  simpa [isExponentMark] using And.intro (hne 'e' rfl) (hne 'E' rfl)

/-- Behind digits, a number ends in front of a hyphen or a colon at the latest. -/
theorem not_endsLine_of_readNumber {digits behind later : List Char} {c : Char} {s : Scalar}
    (hne : digits ≠ []) (hdigits : ∀ d ∈ digits, isDigit d = true) (hc : c = '-' ∨ c = ':')
    (h : readNumber (digits ++ c :: behind) = some (s, later)) : ¬ EndsLine later := by
  have hmark : Foreign c ∧ isDigit c = false ∧ c ≠ '_' := by
    rcases hc with rfl | rfl
    · exact ⟨⟨by decide, by decide, by decide, by decide⟩, by decide, by decide⟩
    · exact ⟨⟨by decide, by decide, by decide, by decide⟩, by decide, by decide⟩
  obtain ⟨hforeign, hdigit, hunder⟩ := hmark
  cases digits with
  | nil => exact absurd rfl hne
  | cons d digits =>
      have hd := hdigits d List.mem_cons_self
      have hmore : ∀ e ∈ digits, isDigit e = true := fun e he => hdigits e (List.mem_cons_of_mem _ he)
      obtain ⟨e, more, hsecond, he⟩ : ∃ e more, digits ++ c :: behind = e :: more ∧ Foreign e := by
        cases digits with
        | nil => exact ⟨c, behind, rfl, hforeign⟩
        | cons e digits => exact ⟨e, _, rfl, foreign_of_digit (hmore e List.mem_cons_self)⟩
      have hdecimal : readNumber (d :: digits ++ c :: behind)
          = readUnsigned false (d :: (digits ++ c :: behind)) := by
        rw [List.cons_append, readNumber_of_unmarked]
        · exact readDecimal_of_digit (takeSign_digit hd _) hd
        · intro second rest heq
          rw [hsecond] at heq
          cases heq
          exact he.base
      rw [hdecimal] at h
      obtain ⟨⟨whole, rest⟩, hwhole, htail⟩ := Option.bind_eq_some_iff.mp h
      by_cases hzero : d = '0'
      · -- a zero stands alone, whatever follows it
        rw [hzero, hsecond] at hwhole
        cases hwhole
        rw [later_of_readTail he.point he.exponent htail]
        rintro ⟨next, heq⟩
        exact he.line (List.cons.inj heq).1
      · rw [wholeDigits, someDigits, if_pos hd, moreDigits_append hmore hdigit hunder] at hwhole
        · cases hwhole
          rw [later_of_readTail hforeign.point hforeign.exponent htail]
          rintro ⟨next, heq⟩
          exact hforeign.line (List.cons.inj heq).1
        · intro behind heq
          exact hzero (List.cons.inj heq).1

theorem eq_cons_of_dropChar {c : Char} {text rest : List Char} (h : dropChar c text = some rest) :
    text = c :: rest := by
  cases text with
  | nil => cases h
  | cons d text =>
      rw [dropChar] at h
      split at h
      · rename_i hd
        cases h
        rw [hd]
      · cases h

theorem digits_of_fixedDigits {count value : Nat} {text rest : List Char}
    (h : fixedDigits count text = some (value, rest)) :
    ∃ digits, text = digits ++ rest ∧ digits.length = count ∧ ∀ d ∈ digits, isDigit d = true := by
  rw [fixedDigits] at h
  split at h
  · rename_i hdigits
    cases h
    exact ⟨text.take count, (List.take_append_drop count text).symm, hdigits.1,
      List.all_eq_true.mp hdigits.2⟩
  · cases h

theorem digits_of_twoDigits {low high value : Nat} {text rest : List Char}
    (h : twoDigits low high text = some (value, rest)) :
    ∃ digits, text = digits ++ rest ∧ digits.length = 2 ∧ ∀ d ∈ digits, isDigit d = true := by
  obtain ⟨⟨found, behind⟩, hfound, h⟩ := Option.bind_eq_some_iff.mp h
  dsimp only at h
  split at h
  · cases h
    exact digits_of_fixedDigits hfound
  · cases h

/-- Digits, and then a character that no number goes on with. -/
def BeginsMoment (text : List Char) : Prop :=
  ∃ digits c behind, text = digits ++ c :: behind ∧ digits ≠ [] ∧
    (∀ d ∈ digits, isDigit d = true) ∧ (c = '-' ∨ c = ':')

theorem beginsMoment_of_dropDate {text later : List Char} (h : dropDate text = some later) :
    BeginsMoment text := by
  obtain ⟨⟨year, rest⟩, hyear, h⟩ := Option.bind_eq_some_iff.mp h
  obtain ⟨behind, hhyphen, -⟩ := Option.bind_eq_some_iff.mp h
  obtain ⟨digits, rfl, hlength, hdigits⟩ := digits_of_fixedDigits hyear
  refine ⟨digits, '-', behind, by rw [eq_cons_of_dropChar hhyphen], ?_, hdigits, Or.inl rfl⟩
  rintro rfl
  cases hlength

theorem beginsMoment_of_dropTime {text later : List Char} (h : dropTime text = some later) :
    BeginsMoment text := by
  obtain ⟨afterMinute, hminute, -⟩ := Option.bind_eq_some_iff.mp h
  obtain ⟨⟨hour, rest⟩, hhour, h⟩ := Option.bind_eq_some_iff.mp hminute
  obtain ⟨behind, hcolon, -⟩ := Option.bind_eq_some_iff.mp h
  obtain ⟨digits, rfl, hlength, hdigits⟩ := digits_of_twoDigits hhour
  refine ⟨digits, ':', behind, by rw [eq_cons_of_dropChar hcolon], ?_, hdigits, Or.inr rfl⟩
  rintro rfl
  cases hlength

theorem beginsMoment_of_dropMoment {text later : List Char} (h : dropMoment text = some later) :
    BeginsMoment text := by
  rw [dropMoment] at h
  split at h
  · exact beginsMoment_of_dropTime h
  · rename_i hdate
    exact beginsMoment_of_dropDate hdate
  · rename_i hdate
    exact beginsMoment_of_dropDate hdate

/-- **A number up to the end of its line is no date and no time.** -/
theorem dropMoment_of_readNumber {text later : List Char} {s : Scalar}
    (h : readNumber text = some (s, later)) (hlater : EndsLine later) : dropMoment text = none := by
  by_contra hmoment
  obtain ⟨rest, hrest⟩ := Option.ne_none_iff_exists'.mp hmoment
  obtain ⟨digits, c, behind, rfl, hne, hdigits, hc⟩ := beginsMoment_of_dropMoment hrest
  exact not_endsLine_of_readNumber hne hdigits hc h hlater

/-! ## Numbers as values -/

/-- What a number can begin with. -/
def BeginsNumber (c : Char) : Prop := isDigit c = true ∨ c = '+' ∨ c = '-' ∨ c = 'i' ∨ c = 'n'

theorem head_of_readNumber {text later : List Char} {s : Scalar}
    (h : readNumber text = some (s, later)) : ∃ c more, text = c :: more ∧ BeginsNumber c := by
  unfold readNumber at h
  split at h
  · exact ⟨'0', _, rfl, Or.inl rfl⟩
  · exact ⟨'0', _, rfl, Or.inl rfl⟩
  · exact ⟨'0', _, rfl, Or.inl rfl⟩
  · cases text with
    | nil => cases h
    | cons c more =>
        refine ⟨c, more, rfl, ?_⟩
        by_cases hsign : c = '+' ∨ c = '-'
        · exact Or.inr (hsign.imp_right Or.inl)
        · have htake : takeSign (c :: more) = (false, c :: more) := by
            rw [takeSign]
            · intro behind heq
              exact hsign (Or.inl (List.cons.inj heq).1)
            · intro behind heq
              exact hsign (Or.inr (List.cons.inj heq).1)
          unfold readDecimal at h
          rw [htake] at h
          split at h
          · rename_i heq
            cases heq
            exact Or.inr (Or.inr (Or.inr (Or.inl rfl)))
          · rename_i heq
            cases heq
            exact Or.inr (Or.inr (Or.inr (Or.inr rfl)))
          · rename_i heq
            cases heq
            obtain ⟨⟨digits, behind⟩, hdigits, -⟩ := Option.bind_eq_some_iff.mp h
            obtain ⟨d, rest, heq, hd⟩ := head_of_wholeDigits hdigits
            cases heq
            exact Or.inl hd

theorem BeginsNumber.ne {c d : Char} (h : BeginsNumber c) (hd : isDigit d = false)
    (hne : d ≠ '+' ∧ d ≠ '-' ∧ d ≠ 'i' ∧ d ≠ 'n') : c ≠ d := by
  rintro rfl
  rcases h with hdigit | rfl | rfl | rfl | rfl
  · rw [hd] at hdigit
    cases hdigit
  · exact hne.1 rfl
  · exact hne.2.1 rfl
  · exact hne.2.2.1 rfl
  · exact hne.2.2.2 rfl

/-- **A number is what the value at the end of its line is read as.** -/
theorem readScalar_number {text : List Char} {s : Scalar} (h : readNumber text = some (s, []))
    {rest : List Char} (hrest : EndsLine rest) : readScalar (text ++ rest) = some (s, rest) := by
  have hnumber := steady_readNumber.append hrest h
  rw [List.nil_append] at hnumber
  have hmoment := dropMoment_of_readNumber hnumber hrest
  obtain ⟨c, more, hhead, hbegins⟩ := head_of_readNumber hnumber
  rw [hhead] at hnumber hmoment ⊢
  unfold readScalar
  split
  · rename_i heq
    exact absurd (List.cons.inj heq).1 (hbegins.ne rfl (by decide))
  · rename_i heq
    exact absurd (List.cons.inj heq).1 (hbegins.ne rfl (by decide))
  · rename_i heq
    exact absurd (List.cons.inj heq).1 (hbegins.ne rfl (by decide))
  · rename_i heq
    exact absurd (List.cons.inj heq).1 (hbegins.ne rfl (by decide))
  · rw [hmoment]
    exact hnumber

end Golden.Toml
