import Golden.Proofs.Json.Tokens

/-!
# Golden.Proofs.Json.Printed — values read back from their printed form

**Reading undoes printing** (`parse_toText`), at any depth of indentation and with anything behind
the value that does not go on with a number (`value_print`).  The only condition is that the numbers
in a value are spelled as numbers, which a value does not promise by itself (`WellSpelled`).

The induction is on the value, with one case for its items and one for its members.  Reading spends
one unit of fuel for each bracket, comma and name that it passes, all of which stand in the printed
form, so the length of that form bounds what is needed.
-/

namespace Golden.Json

mutual

/-- A value whose numbers are spelled as numbers. -/
def WellSpelled : Json → Prop
  | .null | .bool _ | .string _ => True
  | .number literal => ∃ s, scanSpelling literal = some (s, [])
  | .array items => ItemsWellSpelled items
  | .object members => MembersWellSpelled members

def ItemsWellSpelled : List Json → Prop
  | [] => True
  | item :: items => WellSpelled item ∧ ItemsWellSpelled items

def MembersWellSpelled : List (Option String × Json) → Prop
  | [] => True
  | (_, value) :: members => WellSpelled value ∧ MembersWellSpelled members

end

/-! ## Blanks -/

theorem skipBlanks_cons {c : Char} (h : isBlank c = false) (text : List Char) :
    skipBlanks (c :: text) = c :: text := by
  rw [skipBlanks, List.dropWhile_cons, h]
  rfl

theorem skipBlanks_newLine (depth : Nat) (text : List Char) :
    skipBlanks (newLine depth ++ text) = skipBlanks text := by
  show skipBlanks (List.replicate (2 * depth) ' ' ++ text) = skipBlanks text
  induction 2 * depth with
  | zero => rfl
  | succ count ih => exact ih

/-- Reading a value starts behind the blanks in front of it. -/
theorem value_of_skipBlanks {text text' : List Char} (h : skipBlanks text = skipBlanks text')
    (fuel : Nat) : value fuel text = value fuel text' := by
  cases fuel with
  | zero => rfl
  | succ fuel => rw [value, value, h]

theorem member_of_skipBlanks {text text' : List Char} (h : skipBlanks text = skipBlanks text')
    (fuel : Nat) : member fuel text = member fuel text' := by
  cases fuel with
  | zero => rfl
  | succ fuel => rw [member, member, h]

/-! ## Heads -/

/-- What no number starts with: blanks, and what starts or ends another value. -/
def otherHeads : List Char := [' ', '\t', '\n', '\r', '"', '[', ']', '\x7b', 'n', 't', 'f']

theorem notMem_otherHeads {c : Char} (h : c = '-' ∨ Decimal.isDigit c = true) :
    c ∉ otherHeads := by
  have hnone : otherHeads.all (fun x => x != '-' && !Decimal.isDigit x) = true := rfl
  intro hmem
  have hc := List.all_eq_true.mp hnone c hmem
  rcases h with rfl | hdigit
  · cases hc
  · rw [hdigit, Bool.not_true, Bool.and_false] at hc
    cases hc

theorem isBlank_of_notMem {c : Char} (h : c ∉ otherHeads) : isBlank c = false := by
  simp only [otherHeads, List.mem_cons, not_or] at h
  simp [isBlank, h.1, h.2.1, h.2.2.1, h.2.2.2.1]

/-- A value that starts like a number is read as one. -/
theorem value_number {c : Char} (h : c ∉ otherHeads) (fuel : Nat) (text : List Char) :
    value (fuel + 1) (c :: text)
      = (scanNumber (c :: text)).map fun (literal, later) => (.number literal, later) := by
  have hne : ∀ x ∈ otherHeads, ∀ behind, c :: text ≠ x :: behind := by
    intro x hx behind heq
    exact h ((List.cons.inj heq).1 ▸ hx)
  rw [value, skipBlanks_cons (isBlank_of_notMem h)]
  split
  · rename_i heq
    cases heq
  · rename_i heq
    exact absurd heq (hne '"' (by decide) _)
  · rename_i heq
    exact absurd heq (hne '[' (by decide) _)
  · rename_i heq
    exact absurd heq (hne '\x7b' (by decide) _)
  · rename_i heq
    exact absurd heq (hne 'n' (by decide) _)
  · rename_i heq
    exact absurd heq (hne 't' (by decide) _)
  · rename_i heq
    exact absurd heq (hne 'f' (by decide) _)
  · rfl

/-- A printed value starts with something to read, and not with the end of an array. -/
theorem head_print {j : Json} (h : j.WellSpelled) (depth : Nat) :
    ∃ c behind, print depth j = c :: behind ∧ isBlank c = false ∧ c ≠ ']' := by
  cases j with
  | null => exact ⟨'n', _, rfl, by decide⟩
  | bool value => cases value <;> exact ⟨_, _, rfl, by decide⟩
  | number literal =>
      obtain ⟨s, hs⟩ := h
      obtain ⟨c, behind, hliteral, hc⟩ := head_of_scanSpelling hs
      have hother := notMem_otherHeads hc
      refine ⟨c, behind, hliteral, isBlank_of_notMem hother, ?_⟩
      rintro rfl
      exact hother (by decide)
  | string text => cases text <;> exact ⟨'"', _, rfl, by decide⟩
  | array items => cases items <;> exact ⟨'[', _, rfl, by decide⟩
  | object members =>
      rcases members with - | ⟨⟨name, value⟩, members⟩
      · exact ⟨'\x7b', _, rfl, by decide⟩
      · exact ⟨'\x7b', _, rfl, by decide⟩

/-! ## Brackets -/

theorem value_string (text : Option String) (fuel : Nat) (rest : List Char) :
    value (fuel + 1) (printString text ++ rest) = some (.string text, rest) := by
  obtain ⟨body, hbody, htext⟩ := readString_printString text rest
  simp only [hbody, value, skipBlanks_cons (show isBlank '"' = false by decide), htext]
  rfl

/-- An array that does not end at once is read item by item. -/
theorem value_array {text behind : List Char} {c : Char} (hskip : skipBlanks text = c :: behind)
    (hc : c ≠ ']') {fuel : Nat} {first : Json} {others : List Json} {later rest : List Char}
    (hfirst : value fuel text = some (first, later))
    (hothers : itemsAfter fuel later = some (others, rest)) :
    value (fuel + 1) ('[' :: text) = some (.array (first :: others), rest) := by
  simp only [value, skipBlanks_cons (show isBlank '[' = false by decide), hskip]
  split
  · rename_i heq
    exact absurd (List.cons.inj heq).1 hc
  · simp only [hfirst, hothers, Option.bind_eq_bind, Option.bind_some]
    rfl

/-- An object that does not end at once is read member by member. -/
theorem value_object {text behind : List Char} (hskip : skipBlanks text = '"' :: behind)
    {fuel : Nat} {first : Option String × Json} {others : List (Option String × Json)}
    {later rest : List Char} (hfirst : member fuel text = some (first, later))
    (hothers : membersAfter fuel later = some (others, rest)) :
    value (fuel + 1) ('\x7b' :: text) = some (.object (first :: others), rest) := by
  simp only [value, skipBlanks_cons (show isBlank '\x7b' = false by decide), hskip, hfirst, hothers,
    Option.bind_eq_bind, Option.bind_some]
  rfl

/-- A member is a string, a colon and a value. -/
theorem member_printed (name : Option String) {fuel : Nat} {content : Json}
    {text rest : List Char} (hcontent : value fuel text = some (content, rest)) :
    member (fuel + 1) (printString name ++ ':' :: ' ' :: text) = some ((name, content), rest) := by
  obtain ⟨body, hbody, hname⟩ := readString_printString name (':' :: ' ' :: text)
  have hskip : skipBlanks (' ' :: text) = skipBlanks text := rfl
  have hblank := value_of_skipBlanks hskip fuel
  rw [hbody, member, skipBlanks_cons (by decide)]
  simp only [hname, skipBlanks_cons (show isBlank ':' = false by decide), hblank, hcontent,
    Option.bind_eq_bind, Option.bind_some]
  rfl

theorem itemsAfter_cons {fuel : Nat} {item : Json} {items : List Json} {text later rest : List Char}
    (hitem : value fuel text = some (item, later))
    (hitems : itemsAfter fuel later = some (items, rest)) :
    itemsAfter (fuel + 1) (',' :: text) = some (item :: items, rest) := by
  rw [itemsAfter, skipBlanks_cons (by decide)]
  simp only [hitem, hitems, Option.bind_eq_bind, Option.bind_some]
  rfl

theorem itemsAfter_nil (fuel depth : Nat) (rest : List Char) :
    itemsAfter (fuel + 1) (newLine depth ++ ']' :: rest) = some ([], rest) := by
  rw [itemsAfter, skipBlanks_newLine]
  rfl

theorem membersAfter_cons {fuel : Nat} {first : Option String × Json}
    {others : List (Option String × Json)} {text later rest : List Char}
    (hfirst : member fuel text = some (first, later))
    (hothers : membersAfter fuel later = some (others, rest)) :
    membersAfter (fuel + 1) (',' :: text) = some (first :: others, rest) := by
  rw [membersAfter, skipBlanks_cons (by decide)]
  simp only [hfirst, hothers, Option.bind_eq_bind, Option.bind_some]
  rfl

theorem membersAfter_nil (fuel depth : Nat) (rest : List Char) :
    membersAfter (fuel + 1) (newLine depth ++ '\x7d' :: rest) = some ([], rest) := by
  rw [membersAfter, skipBlanks_newLine]
  rfl

/-! ## Values -/

/-- What follows a value inside brackets does not go on with a number. -/
theorem endsNumber_printItems (depth outer : Nat) (items : List Json) (rest : List Char) :
    EndsNumber (printItems depth items ++ (newLine outer ++ rest)) := by
  cases items <;> exact endsNumber_cons (by decide) _

theorem endsNumber_printMembers (depth outer : Nat) (members : List (Option String × Json))
    (rest : List Char) : EndsNumber (printMembers depth members ++ (newLine outer ++ rest)) := by
  rcases members with - | ⟨⟨name, value⟩, members⟩ <;> exact endsNumber_cons (by decide) _

mutual

/-- **A printed value is read back**, at any depth and in front of any text that does not go on with
a number. -/
theorem value_print : ∀ (j : Json) (depth fuel : Nat) (rest : List Char), j.WellSpelled →
    EndsNumber rest → (print depth j).length < fuel →
      value fuel (print depth j ++ rest) = some (j, rest)
  | j, depth, 0, rest, _, _, hfuel => absurd hfuel (Nat.not_lt_zero _)
  | .null, _, fuel + 1, rest, _, _, _ => rfl
  | .bool true, _, fuel + 1, rest, _, _, _ => rfl
  | .bool false, _, fuel + 1, rest, _, _, _ => rfl
  | .number literal, depth, fuel + 1, rest, ⟨s, hs⟩, hrest, _ => by
      obtain ⟨c, behind, hliteral, hc⟩ := head_of_scanSpelling hs
      have hscan := scanNumber_append hs hrest
      show value (fuel + 1) (literal ++ rest) = _
      rw [hliteral, List.cons_append] at hscan ⊢
      rw [value_number (notMem_otherHeads hc), hscan]
      rfl
  | .string text, _, fuel + 1, rest, _, _, _ => value_string text fuel rest
  | .array [], _, fuel + 1, rest, _, _, _ => rfl
  | .array (item :: items), depth, fuel + 1, rest, ⟨hitem, hitems⟩, _, hfuel => by
      simp only [print, List.length_append, List.length_cons] at hfuel
      have hothers := itemsAfter_printItems items (depth + 1) depth fuel rest hitems (by omega)
      have hends := endsNumber_printItems (depth + 1) depth items (']' :: rest)
      simp only [print, List.append_assoc, List.cons_append, List.nil_append]
      generalize printItems (depth + 1) items ++ (newLine depth ++ ']' :: rest) = behind at *
      have hfirst := value_print item (depth + 1) fuel behind hitem hends (by omega)
      rw [← value_of_skipBlanks (skipBlanks_newLine (depth + 1) _)] at hfirst
      obtain ⟨c, tail, hhead, hblank, hc⟩ := head_print hitem (depth + 1)
      have hskip : skipBlanks (newLine (depth + 1) ++ (print (depth + 1) item ++ behind))
          = c :: (tail ++ behind) := by
        rw [skipBlanks_newLine, hhead, List.cons_append, skipBlanks_cons hblank]
      exact value_array hskip hc hfirst hothers
  | .object [], _, fuel + 1, rest, _, _, _ => rfl
  | .object ((name, content) :: members), depth, 1, rest, _, _, hfuel => by
      simp only [print, List.length_append, List.length_cons] at hfuel
      omega
  | .object ((name, content) :: members), depth, fuel + 2, rest, ⟨hcontent, hmembers⟩, _,
    hfuel => by
      simp only [print, List.length_append, List.length_cons] at hfuel
      have hothers :=
        membersAfter_printMembers members (depth + 1) depth (fuel + 1) rest hmembers (by omega)
      have hends := endsNumber_printMembers (depth + 1) depth members ('\x7d' :: rest)
      simp only [print, List.append_assoc, List.cons_append, List.nil_append]
      generalize printMembers (depth + 1) members ++ (newLine depth ++ '\x7d' :: rest) = behind at *
      have hvalue := value_print content (depth + 1) fuel behind hcontent hends (by omega)
      have hfirst := member_printed name hvalue
      rw [← member_of_skipBlanks (skipBlanks_newLine (depth + 1) _)] at hfirst
      obtain ⟨body, hbody, -⟩ :=
        readString_printString name (':' :: ' ' :: (print (depth + 1) content ++ behind))
      have hskip : skipBlanks (newLine (depth + 1) ++ (printString name ++ ':' :: ' '
          :: (print (depth + 1) content ++ behind))) = '"' :: body := by
        rw [skipBlanks_newLine, hbody, skipBlanks_cons (by decide)]
      exact value_object hskip hfirst hothers

theorem itemsAfter_printItems : ∀ (items : List Json) (depth outer fuel : Nat) (rest : List Char),
    ItemsWellSpelled items → (printItems depth items).length < fuel →
      itemsAfter fuel (printItems depth items ++ (newLine outer ++ ']' :: rest))
        = some (items, rest)
  | _, _, _, 0, _, _, hfuel => absurd hfuel (Nat.not_lt_zero _)
  | [], _, outer, fuel + 1, rest, _, _ => itemsAfter_nil fuel outer rest
  | item :: items, depth, outer, fuel + 1, rest, ⟨hitem, hitems⟩, hfuel => by
      simp only [printItems, List.length_append, List.length_cons] at hfuel
      have hothers := itemsAfter_printItems items depth outer fuel rest hitems (by omega)
      have hends := endsNumber_printItems depth outer items (']' :: rest)
      simp only [printItems, List.append_assoc, List.cons_append]
      generalize printItems depth items ++ (newLine outer ++ ']' :: rest) = behind at *
      have hitem' := value_print item depth fuel behind hitem hends (by omega)
      rw [← value_of_skipBlanks (skipBlanks_newLine depth _)] at hitem'
      exact itemsAfter_cons hitem' hothers

theorem membersAfter_printMembers : ∀ (members : List (Option String × Json))
    (depth outer fuel : Nat) (rest : List Char), MembersWellSpelled members →
    (printMembers depth members).length < fuel →
      membersAfter fuel (printMembers depth members ++ (newLine outer ++ '\x7d' :: rest))
        = some (members, rest)
  | _, _, _, 0, _, _, hfuel => absurd hfuel (Nat.not_lt_zero _)
  | [], _, outer, fuel + 1, rest, _, _ => membersAfter_nil fuel outer rest
  | (name, content) :: members, depth, _, 1, rest, _, hfuel => by
      simp only [printMembers, List.length_append, List.length_cons] at hfuel
      omega
  | (name, content) :: members, depth, outer, fuel + 2, rest, ⟨hcontent, hmembers⟩, hfuel => by
      simp only [printMembers, List.length_append, List.length_cons] at hfuel
      have hothers :=
        membersAfter_printMembers members depth outer (fuel + 1) rest hmembers (by omega)
      have hends := endsNumber_printMembers depth outer members ('\x7d' :: rest)
      simp only [printMembers, List.append_assoc, List.cons_append]
      generalize printMembers depth members ++ (newLine outer ++ '\x7d' :: rest) = behind at *
      have hvalue := value_print content depth fuel behind hcontent hends (by omega)
      have hfirst := member_printed name hvalue
      rw [← member_of_skipBlanks (skipBlanks_newLine depth _)] at hfirst
      exact membersAfter_cons hfirst hothers

end

/-- **Reading undoes printing.** -/
theorem parse_toText {j : Json} (h : j.WellSpelled) : parse j.toText = some j := by
  have hvalue := value_print j 0 ((print 0 j).length + 1) [] h endsNumber_nil (Nat.lt_succ_self _)
  rw [List.append_nil] at hvalue
  rw [parse, toText, String.toList_ofList]
  simp only [hvalue, Option.bind_eq_bind, Option.bind_some]
  rfl

end Golden.Json
