import Golden.Proofs.Toml.Numbers
import Golden.Proofs.Toml.Quoted
import Golden.Toml.Printer

/-!
# Golden.Proofs.Toml.Printed — sections read back as statements

A printed section is a heading and a line for each entry, and each of these lines is one statement
(`Section.statements`).  A line is read back if its name is bare and its value is one that its own
text gives back in front of the end of a line (`Scalar.ReadsBack`); that holds of every truth value
and every text, and of a float exactly if its digits give it back.

Lines are read one at a time and each costs one unit of fuel, so what is known of a text is best
said with enough fuel for any text of its length (`Reads`).  A line in front of a text that reads as
some statements reads as one statement more (`reads_entry`, `reads_heading`).  **The whole text of a
series of sections therefore reads as all their statements in order** (`reads_writeSections`).
-/

namespace Golden.Toml

/-! ## Values -/

/-- A value that is read back from its text up to the end of the line. -/
structure Scalar.ReadsBack (s : Scalar) : Prop where
  begins : ∃ c more, s.write = c :: more ∧ isBlank c = false ∧ c ≠ '[' ∧ c ≠ '\x7b'
  read : ∀ {rest}, EndsLine rest → readScalar (s.write ++ rest) = some (s, rest)

theorem readsBack_boolean (value : Bool) : (Scalar.boolean value).ReadsBack := by
  cases value with
  | false => exact ⟨⟨'f', _, rfl, by decide⟩, fun _ => rfl⟩
  | true => exact ⟨⟨'t', _, rfl, by decide⟩, fun _ => rfl⟩

/-- A written text begins with one of its marks. -/
theorem write_eq_cons (text : List Char) : ∃ mark more, write text = Mark.char mark :: more := by
  unfold write
  dsimp only
  rcases Style.of text with ⟨mark, _ | _⟩
  · exact ⟨mark, _, rfl⟩
  · exact ⟨mark, _, rfl⟩

/-- Behind a mark, a value is a text. -/
theorem readScalar_mark (mark : Mark) (text : List Char) :
    readScalar (mark.char :: text)
      = (readText (mark.char :: text)).map fun (chars, rest) => (.text (String.ofList chars), rest) :=
  match mark with
  | .double => rfl
  | .single => rfl

theorem readsBack_text (text : String) : (Scalar.text text).ReadsBack := by
  obtain ⟨mark, more, hwrite⟩ := write_eq_cons text.toList
  have hbegins : (Scalar.text text).write = Mark.char mark :: more := hwrite
  refine ⟨⟨_, _, hbegins, by cases mark <;> decide⟩, ?_⟩
  rintro _ ⟨next, rfl⟩
  have hread : readText (write text.toList ++ '\n' :: next) = some (text.toList, '\n' :: next) :=
    readText_write text.toList (by simp) (by simp)
  rw [hwrite, List.cons_append] at hread
  rw [hbegins, List.cons_append, readScalar_mark, hread, Option.map_some]
  dsimp only
  rw [String.ofList_toList]

/-- The float that a text spells, if it spells one. -/
def spelledFloat? (text : List Char) : Option Float :=
  match readNumber text with
  | some (.float x, []) => some x
  | _ => none

/-- A float that its own text spells. -/
def ReadsBack (x : Float) : Prop := spelledFloat? (writeFloat x) = some x

instance (x : Float) : Decidable (ReadsBack x) := inferInstanceAs (Decidable (_ = _))

theorem ReadsBack.readNumber_eq {x : Float} (h : ReadsBack x) :
    readNumber (writeFloat x) = some (.float x, []) := by
  unfold ReadsBack spelledFloat? at h
  split at h
  · rename_i hread
    cases h
    exact hread
  · cases h

theorem ReadsBack.float {x : Float} (h : ReadsBack x) : (Scalar.float x).ReadsBack := by
  have hread := h.readNumber_eq
  obtain ⟨c, more, hwrite, hbegins⟩ := head_of_readNumber hread
  refine ⟨⟨c, more, hwrite, ?_, ?_, ?_⟩, fun hrest => readScalar_number hread hrest⟩
  · simpa [isBlank] using And.intro (hbegins.ne (d := ' ') rfl (by decide))
      (hbegins.ne (d := '\t') rfl (by decide))
  · exact hbegins.ne rfl (by decide)
  · exact hbegins.ne rfl (by decide)

/-! ## Entries -/

/-- A name that needs no quotes. -/
def Bare (name : String) : Prop :=
  name.toList ≠ [] ∧ name.toList.all isBareKeyChar = true

/-- A bare name begins with nothing that has a meaning at the start of a line. -/
theorem Bare.eq_cons {name : String} (h : Bare name) :
    ∃ c more, name.toList = c :: more ∧ isBareKeyChar c = true := by
  obtain ⟨hne, hbare⟩ := h
  cases hname : name.toList with
  | nil => exact absurd hname hne
  | cons c more =>
      rw [hname] at hbare
      exact ⟨c, more, rfl, List.all_eq_true.mp hbare c List.mem_cons_self⟩

theorem ne_of_bare {c d : Char} (h : isBareKeyChar c = true) (hd : isBareKeyChar d = false) :
    c ≠ d := by
  rintro rfl
  rw [h] at hd
  cases hd

theorem skipBlanks_cons {c : Char} (h : isBlank c = false) (text : List Char) :
    skipBlanks (c :: text) = c :: text := by
  rw [skipBlanks, List.dropWhile_cons, h]
  rfl

theorem skipBlanks_bare {c : Char} (h : isBareKeyChar c = true) (text : List Char) :
    skipBlanks (c :: text) = c :: text := by
  apply skipBlanks_cons
  simpa [isBlank] using And.intro (ne_of_bare h (d := ' ') rfl) (ne_of_bare h (d := '\t') rfl)

theorem readKeyPart_bare {name : String} (h : Bare name) {c : Char} (hc : isBareKeyChar c = false)
    (rest : List Char) :
    readKeyPart (name.toList ++ c :: rest) = some (name.toList, c :: rest) := by
  have htake : (name.toList ++ c :: rest).takeWhile isBareKeyChar = name.toList := by
    rw [List.takeWhile_append_of_pos (List.all_eq_true.mp h.2), List.takeWhile_cons, hc]
    exact List.append_nil _
  have hdrop : (name.toList ++ c :: rest).dropWhile isBareKeyChar = c :: rest := by
    rw [List.dropWhile_append_of_pos (List.all_eq_true.mp h.2), List.dropWhile_cons, hc]
    rfl
  obtain ⟨first, more, hname, hfirst⟩ := h.eq_cons
  rw [hname, List.cons_append] at htake hdrop ⊢
  rw [readKeyPart, htake, hdrop]
  · intro behind heq
    exact ne_of_bare hfirst rfl (List.cons.inj heq).1
  · intro behind heq
    exact ne_of_bare hfirst rfl (List.cons.inj heq).1

/-- A bare name is a key of one part. -/
theorem readKey_bare {name : String} (h : Bare name) {text rest : List Char} {c : Char}
    (hc : isBareKeyChar c = false) (hrest : skipBlanks (c :: text) = rest)
    (hpoint : ∀ behind, rest ≠ '.' :: behind) :
    readKey (name.toList ++ c :: text) = some (⟨[], name⟩, rest) := by
  obtain ⟨first, more, hname, hfirst⟩ := h.eq_cons
  have hskip : skipBlanks (name.toList ++ c :: text) = name.toList ++ c :: text := by
    rw [hname, List.cons_append, skipBlanks_bare hfirst]
  show readKeyParts (78 + 1) _ = _
  rw [readKeyParts, hskip, readKeyPart_bare h hc, Option.bind_eq_bind, Option.bind_some]
  dsimp only
  rw [hrest, String.ofList_toList]
  split
  · exact absurd rfl (hpoint _)
  · rfl

theorem readValue_scalar {s : Scalar} (h : s.ReadsBack) {rest : List Char} (hrest : EndsLine rest)
    (depth : Nat) : readValue depth (s.write ++ rest) = some (.scalar s, rest) := by
  have hread := h.read hrest
  obtain ⟨c, more, hwrite, -, hbracket, hbrace⟩ := h.begins
  cases depth with
  | zero => rw [readValue, hread]; rfl
  | succ depth =>
      rw [hwrite, List.cons_append] at hread ⊢
      rw [readValue]
      · rw [hread]
        rfl
      · intro behind heq
        exact hbracket (List.cons.inj heq).1
      · intro behind heq
        exact hbrace (List.cons.inj heq).1

theorem readPair_entry {name : String} (hname : Bare name) {value : Scalar} (hvalue : value.ReadsBack)
    {rest : List Char} (hrest : EndsLine rest) (depth : Nat) :
    readPair (readValue depth) (name.toList ++ ' ' :: '=' :: ' ' :: (value.write ++ rest))
      = some ((⟨[], name⟩, .scalar value), rest) := by
  have hkey : readKey (name.toList ++ ' ' :: '=' :: ' ' :: (value.write ++ rest))
      = some (⟨[], name⟩, '=' :: ' ' :: (value.write ++ rest)) := by
    apply readKey_bare hname rfl rfl
    intro behind heq
    cases heq
  have hskip : skipBlanks (' ' :: (value.write ++ rest)) = value.write ++ rest := by
    obtain ⟨c, more, hwrite, hblank, -⟩ := hvalue.begins
    rw [hwrite]
    exact skipBlanks_cons hblank _
  have hline : skipBlanks rest = rest := by
    obtain ⟨next, rfl⟩ := hrest
    rfl
  rw [readPair, hkey]
  show (readValue depth (skipBlanks (' ' :: (value.write ++ rest)))).bind _ = _
  rw [hskip, readValue_scalar hvalue hrest, Option.bind_some]
  show some _ = _
  rw [hline]

/-! ## Statements -/

/-- A text whose statements are read with enough fuel for any text of its length. -/
def Reads (text : List Char) (statements : List Statement) : Prop :=
  ∀ fuel, text.length < fuel → readStatements fuel text = some statements

/-- A line that says something. -/
theorem readStatements_cons {c : Char} (hblank : isBlank c = false)
    (hc : c ≠ '#' ∧ c ≠ '\n' ∧ c ≠ '\r') (fuel : Nat) (text : List Char) :
    readStatements (fuel + 1) (c :: text)
      = (readStatement (c :: text)).bind fun (statement, rest) =>
          (readStatements fuel rest).bind fun statements => some (statement :: statements) := by
  have hskip := skipBlanks_cons hblank text
  have hend : skipToLineEnd (c :: text) = c :: text := by
    rw [skipToLineEnd, hskip]
    split
    · rename_i heq
      exact absurd (List.cons.inj heq).1 hc.1
    · rfl
  have hline : dropLineEnd (c :: text) = none := by
    unfold dropLineEnd
    split
    · rename_i heq
      exact absurd (List.cons.inj heq).1 hc.2.1
    · rename_i heq
      exact absurd (List.cons.inj heq).1 hc.2.2
    · rfl
  rw [readStatements, hend]
  dsimp only
  rw [hline, hskip]
  rfl

/-- One statement in front of others. -/
theorem Reads.cons {text rest : List Char} {statement : Statement} {statements : List Statement}
    (h : Reads rest statements) {c : Char} {more : List Char} (htext : text = c :: more)
    (hblank : isBlank c = false) (hc : c ≠ '#' ∧ c ≠ '\n' ∧ c ≠ '\r')
    (hread : readStatement text = some (statement, rest)) (hlength : rest.length < text.length) :
    Reads text (statement :: statements) := by
  intro fuel hfuel
  cases fuel with
  | zero => omega
  | succ fuel =>
      rw [htext] at hread ⊢
      rw [readStatements_cons hblank hc, hread, Option.bind_some]
      dsimp only
      rw [h fuel (by omega)]
      rfl

theorem reads_nil : Reads [] [] := by
  intro fuel hfuel
  cases fuel with
  | zero => omega
  | succ fuel => rfl

/-- An empty line says nothing. -/
theorem Reads.blank {rest : List Char} {statements : List Statement} (h : Reads rest statements) :
    Reads ('\n' :: rest) statements := by
  intro fuel hfuel
  rw [List.length_cons] at hfuel
  cases fuel with
  | zero => omega
  | succ fuel => exact h fuel (by omega)

theorem readStatement_bare {c : Char} (hc : isBareKeyChar c = true) (text : List Char) :
    readStatement (c :: text)
      = (readPair (readValue (depthLimit - 1)) (c :: text)).bind fun ((key, value), rest) =>
          (endLine rest).bind fun rest => some (.entry key value, rest) := by
  rw [readStatement]
  · rfl
  · intro behind heq
    exact ne_of_bare hc rfl (List.cons.inj heq).1
  · intro behind heq
    exact ne_of_bare hc rfl (List.cons.inj heq).1

theorem reads_entry {name : String} (hname : Bare name) {value : Scalar} (hvalue : value.ReadsBack)
    {rest : List Char} {statements : List Statement} (h : Reads rest statements) :
    Reads (writeEntry name value ++ rest) (.entry ⟨[], name⟩ (.scalar value) :: statements) := by
  obtain ⟨c, more, hhead, hc⟩ := hname.eq_cons
  have htext : writeEntry name value ++ rest
      = name.toList ++ ' ' :: '=' :: ' ' :: (value.write ++ '\n' :: rest) := by
    simp [writeEntry]
  have hpair := readPair_entry hname hvalue (endsLine_cons rest) (depthLimit - 1)
  rw [htext]
  have hcons : name.toList ++ ' ' :: '=' :: ' ' :: (value.write ++ '\n' :: rest)
      = c :: (more ++ ' ' :: '=' :: ' ' :: (value.write ++ '\n' :: rest)) := by
    rw [hhead, List.cons_append]
  apply h.cons hcons
  · simpa [isBlank] using And.intro (ne_of_bare hc (d := ' ') rfl) (ne_of_bare hc (d := '\t') rfl)
  · exact ⟨ne_of_bare hc rfl, ne_of_bare hc rfl, ne_of_bare hc rfl⟩
  · rw [hcons] at hpair ⊢
    rw [readStatement_bare hc, hpair]
    rfl
  · simp only [List.length_append, List.length_cons]
    omega

theorem reads_heading {name : String} (hname : Bare name) {rest : List Char}
    {statements : List Statement} (h : Reads rest statements) :
    Reads ('[' :: (name.toList ++ ']' :: '\n' :: rest)) (.heading ⟨[], name⟩ :: statements) := by
  have hkey : readKey (name.toList ++ ']' :: '\n' :: rest)
      = some (⟨[], name⟩, ']' :: '\n' :: rest) := by
    apply readKey_bare hname rfl rfl
    intro behind heq
    cases heq
  apply h.cons rfl
  · decide
  · decide
  · obtain ⟨c, more, hhead, hc⟩ := hname.eq_cons
    rw [hhead, List.cons_append] at hkey ⊢
    rw [readStatement]
    · rw [hkey]
      rfl
    · intro behind heq
      exact ne_of_bare hc rfl (List.cons.inj heq).1
  · simp only [List.length_append, List.length_cons]
    omega

/-! ## Sections -/

namespace Section

/-- A section whose lines are read back. -/
structure ReadsBack (s : Section) : Prop where
  heading : ∀ name ∈ s.heading, Bare name
  entries : ∀ entry ∈ s.entries, Bare entry.1 ∧ entry.2.ReadsBack

/-- What a section says: its heading, then its entries. -/
def statements (s : Section) : List Statement :=
  (s.heading.map fun name => .heading ⟨[], name⟩).toList
    ++ s.entries.map fun (name, value) => .entry ⟨[], name⟩ (.scalar value)

end Section

theorem reads_entries {entries : List (String × Scalar)}
    (hentries : ∀ entry ∈ entries, Bare entry.1 ∧ entry.2.ReadsBack) {rest : List Char}
    {statements : List Statement} (h : Reads rest statements) :
    Reads ((entries.flatMap fun (name, value) => writeEntry name value) ++ rest)
      ((entries.map fun (name, value) => .entry ⟨[], name⟩ (.scalar value)) ++ statements) := by
  induction entries with
  | nil => exact h
  | cons entry entries ih =>
      obtain ⟨hname, hvalue⟩ := hentries entry List.mem_cons_self
      have hothers := ih fun other hmem => hentries other (List.mem_cons_of_mem _ hmem)
      rw [List.flatMap_cons, List.append_assoc]
      exact reads_entry hname hvalue hothers

theorem reads_section {s : Section} (hs : s.ReadsBack) {rest : List Char}
    {statements : List Statement} (h : Reads rest statements) :
    Reads (s.write ++ rest) (s.statements ++ statements) := by
  obtain ⟨heading, entries⟩ := s
  have hentries := reads_entries hs.entries h
  cases heading with
  | none => exact hentries
  | some name =>
      have hheading := reads_heading (hs.heading name rfl) hentries
      simpa [Section.write, Section.statements] using hheading

/-- **Sections are read back as what they say, in their order.** -/
theorem reads_writeSections (ss : List Section) (hss : ∀ s ∈ ss, s.ReadsBack) :
    Reads (writeSections ss) (ss.flatMap Section.statements) := by
  induction ss with
  | nil => exact reads_nil
  | cons s ss ih =>
      have hs := hss s List.mem_cons_self
      have hothers := ih fun other hmem => hss other (List.mem_cons_of_mem _ hmem)
      cases ss with
      | nil => simpa [writeSections] using reads_section hs reads_nil
      | cons next ss => simpa [writeSections] using reads_section hs hothers.blank

end Golden.Toml
