import Golden.Proofs.Comparison.Printed

/-!
# Golden.Proofs.Annotation.ServiceMessage — a service message says what it was made of

A build server reads a service message with rules of its own.  It takes the line apart at the quotes
that have no bar in front of them (`splitQuotes`), so that every other piece is a value as it is
written; it undoes the bars inside each value (`unescape?`); and what stands around the values must
be the opening of a message, the names of the attributes, and the closing bracket with the end of
the line (`Message.read?`).  None of this looks at how messages are written.

**Whatever a test is called and whatever went wrong, the message is read as it was meant**
(`annotate_reads_back`): one line with one message of two attributes, the name of the test and what
is told of it.  A value cannot end itself, its message or its line, since none of the characters
that could is left standing alone (`standing`).  The bar escapes itself, so bars count in pairs from
the left; every fact about an escaped text is an induction that takes such a pair at a time.  A text
has one escaped form, and nothing else can be read (`unescape?_eq_some_iff`).
-/

namespace Golden.TeamCity

/-! ## Plain texts -/

/-- A text of characters that may stand alone. -/
def Plain (text : List Char) : Prop := ∀ c ∈ text, mark? c = none

instance (text : List Char) : Decidable (Plain text) :=
  List.decidableBAll (fun c => mark? c = none) text

theorem plain_append {front back : List Char} :
    Plain (front ++ back) ↔ Plain front ∧ Plain back :=
  List.forall_mem_append

theorem plain_of_isDigit {text : List Char} (h : ∀ c ∈ text, c.isDigit = true) : Plain text := by
  intro c hc
  have hdigit := h c hc
  unfold mark?
  -- none of the six characters with a mark is a digit
  split <;> first | rfl | exact absurd hdigit (by decide)

theorem plain_fixed (places : Nat) (x : Float) : Plain (Decimal.fixed places x).toList := by
  rw [Decimal.fixed, String.toList_ofList]
  split
  · decide
  · rename_i negative _
    cases negative <;> decide
  · rename_i negative mantissa exponent _
    dsimp only
    generalize Decimal.roundRatio _ _ _ = units
    have hunits : Plain (Decimal.digitsOf units) :=
      plain_of_isDigit fun c hc => Nat.isDigit_of_mem_toDigits (by decide) (by decide) hc
    have hpadded : Plain (List.replicate (places + 1 - (Decimal.digitsOf units).length) '0'
        ++ Decimal.digitsOf units) := by
      refine plain_append.mpr ⟨?_, hunits⟩
      intro c hc
      rw [List.eq_of_mem_replicate hc]
      rfl
    generalize List.replicate _ '0' ++ _ = padded at hpadded ⊢
    have hsign : Plain (if negative then ['-'] else []) := by
      cases negative <;> decide
    have hplaces : Plain
        (if places = 0 then [] else '.' :: padded.drop (padded.length - places)) := by
      split
      · exact nofun
      · exact List.forall_mem_cons.mpr ⟨rfl, fun c hc => hpadded c (List.mem_of_mem_drop hc)⟩
    refine plain_append.mpr ⟨plain_append.mpr ⟨hsign, ?_⟩, hplaces⟩
    exact fun c hc => hpadded c (List.mem_of_mem_take hc)

theorem plain_percentage (ratio : Float) : Plain (percentage ratio).toList := by
  rw [percentage, String.toList_append]
  exact plain_append.mpr ⟨plain_fixed 2 _, by decide⟩

/-! ## Escaped values -/

/-- The characters that stand alone: those that are neither a bar nor right behind one.  A bar with
nothing behind it stands alone, too. -/
def standing : List Char → List Char
  | [] => []
  | '|' :: _ :: rest => standing rest
  | c :: rest => c :: standing rest

/-- The character that `|` and this one stand for. -/
def unmark? : Char → Option Char
  | '|' => some '|'
  | '\'' => some '\''
  | 'n' => some '\n'
  | 'r' => some '\r'
  | '[' => some '['
  | ']' => some ']'
  | _ => none

/-- Undo the bars of a value.  A character that must not stand alone makes a value unreadable, and
so does a bar in front of a character it means nothing with. -/
def unescape? : List Char → Option (List Char)
  | [] => some []
  | '|' :: m :: rest => do return (← unmark? m) :: (← unescape? rest)
  | c :: rest => if mark? c = none then (unescape? rest).map (c :: ·) else none

theorem escape_special {c m : Char} (h : mark? c = some m) (rest : List Char) :
    escape (c :: rest) = '|' :: m :: escape rest := by
  rw [escape, h]

theorem escape_plain {c : Char} (h : mark? c = none) (rest : List Char) :
    escape (c :: rest) = c :: escape rest := by
  rw [escape, h]

theorem ne_bar_of_plain {c : Char} (h : mark? c = none) : c ≠ '|' := by
  rintro rfl
  cases h

theorem standing_cons {c : Char} (h : c ≠ '|') (rest : List Char) :
    standing (c :: rest) = c :: standing rest := by
  rw [standing]
  intro _ _ hbar
  exact absurd hbar h

theorem unescape?_cons {c : Char} (h : mark? c = none) (rest : List Char) :
    unescape? (c :: rest) = (unescape? rest).map (c :: ·) := by
  rw [unescape?, if_pos h]
  intro _ _ hbar
  exact absurd hbar (ne_bar_of_plain h)

theorem unmark?_of_mark? {c m : Char} (h : mark? c = some m) : unmark? m = some c := by
  unfold mark? at h
  split at h <;> cases h <;> rfl

theorem mark?_of_unmark? {c m : Char} (h : unmark? m = some c) : mark? c = some m := by
  unfold unmark? at h
  split at h <;> cases h <;> rfl

theorem unescape?_escape (value : List Char) : unescape? (escape value) = some value := by
  induction value with
  | nil => rfl
  | cons c value ih =>
      cases hmark : mark? c with
      | none =>
          rw [escape_plain hmark, unescape?_cons hmark, ih]
          rfl
      | some m =>
          rw [escape_special hmark, unescape?, unmark?_of_mark? hmark, ih]
          rfl

theorem eq_escape_of_unescape? {text value : List Char} (h : unescape? text = some value) :
    text = escape value := by
  induction text using unescape?.induct generalizing value with
  | case1 =>
      cases h
      rfl
  | case2 m rest ih =>
      rw [unescape?] at h
      obtain ⟨c, hc, h⟩ := Option.bind_eq_some_iff.mp h
      obtain ⟨behind, hbehind, h⟩ := Option.bind_eq_some_iff.mp h
      cases h
      rw [escape_special (mark?_of_unmark? hc), ih hbehind]
  | case3 c rest hbar hc ih =>
      rw [unescape?_cons hc] at h
      obtain ⟨behind, hbehind, rfl⟩ := Option.map_eq_some_iff.mp h
      rw [escape_plain hc, ih hbehind]
  | case4 c rest hbar hc =>
      rw [unescape?, if_neg hc] at h
      · cases h
      · exact hbar

/-- **The escaped form of a value is the one text that is read as it.** -/
theorem unescape?_eq_some_iff {text value : List Char} :
    unescape? text = some value ↔ text = escape value := by
  constructor
  · exact eq_escape_of_unescape?
  · rintro rfl
    exact unescape?_escape value

example : unescape? "it|'s |[x|]|||n".toList = some "it's [x]|\n".toList := by decide +kernel

/-- **Of the characters that mean something, none stands alone in an escaped value.** -/
theorem plain_standing_escape (value : List Char) : Plain (standing (escape value)) := by
  induction value with
  | nil => exact nofun
  | cons c value ih =>
      cases hmark : mark? c with
      | none =>
          rw [escape_plain hmark, standing_cons (ne_bar_of_plain hmark)]
          exact List.forall_mem_cons.mpr ⟨hmark, ih⟩
      | some m =>
          rw [escape_special hmark, standing]
          exact ih

/-- An escaped value stays on its line. -/
theorem newline_notMem_escape (value : List Char) :
    '\n' ∉ escape value ∧ '\r' ∉ escape value := by
  induction value with
  | nil => simp [escape]
  | cons c value ih =>
      cases hmark : mark? c with
      | none =>
          have hnewline : '\n' ≠ c := by rintro rfl; cases hmark
          have hreturn : '\r' ≠ c := by rintro rfl; cases hmark
          rw [escape_plain hmark]
          exact ⟨List.not_mem_cons_of_ne_of_not_mem hnewline ih.1,
            List.not_mem_cons_of_ne_of_not_mem hreturn ih.2⟩
      | some m =>
          have hm : unmark? m = some c := unmark?_of_mark? hmark
          have hnewline : '\n' ≠ m := by rintro rfl; cases hm
          have hreturn : '\r' ≠ m := by rintro rfl; cases hm
          rw [escape_special hmark]
          simp [hnewline, hreturn, ih]

/-- A plain text is its own escaped form. -/
theorem escape_of_plain {text : List Char} (h : Plain text) : escape text = text := by
  induction text with
  | nil => rfl
  | cons c text ih =>
      obtain ⟨hc, htext⟩ := List.forall_mem_cons.mp h
      rw [escape_plain hc, ih htext]

/-! ## Pieces between quotes -/

/-- The pieces between the quotes that stand alone; there is always at least one. -/
def splitQuotes : List Char → List (List Char)
  | [] => [[]]
  | '\'' :: rest => [] :: splitQuotes rest
  | '|' :: c :: rest => (splitQuotes rest).modifyHead fun piece => '|' :: c :: piece
  | c :: rest => (splitQuotes rest).modifyHead (c :: ·)

/-- A piece that no quote in it ends, and in which no bar waits for what is behind it. -/
def Unquoted (piece : List Char) : Prop := ∀ c ∈ standing piece, c ≠ '\'' ∧ c ≠ '|'

instance (piece : List Char) : Decidable (Unquoted piece) :=
  List.decidableBAll (fun c => c ≠ '\'' ∧ c ≠ '|') (standing piece)

theorem unquoted_escape (value : List Char) : Unquoted (escape value) := by
  intro c hc
  have hplain : mark? c = none := plain_standing_escape value c hc
  refine ⟨?_, ne_bar_of_plain hplain⟩
  rintro rfl
  cases hplain

/-- A piece, up to the quote behind it. -/
theorem splitQuotes_append {piece : List Char} (h : Unquoted piece) (rest : List Char) :
    splitQuotes (piece ++ '\'' :: rest) = piece :: splitQuotes rest := by
  induction piece using standing.induct with
  | case1 => rfl
  | case2 c piece ih =>
      rw [Unquoted, standing] at h
      show (splitQuotes (piece ++ '\'' :: rest)).modifyHead _ = _
      rw [ih h]
      rfl
  | case3 c piece hbar ih =>
      rw [Unquoted, standing] at h
      · obtain ⟨⟨hquote, hne⟩, hpiece⟩ := List.forall_mem_cons.mp h
        rw [List.cons_append, splitQuotes, ih hpiece]
        · rfl
        · exact hquote
        · intro _ _ hc
          exact absurd hc hne
      · exact hbar

/-! ## Messages -/

/-- A service message as it is read: its kind, and its attributes by name and value. -/
structure Message where
  kind : String
  attributes : List (String × String)
  deriving DecidableEq, Repr

namespace Message

/-- What every service message begins with. -/
def opening : List Char := "##teamcity[".toList

/-- What it ends with. -/
def ending : List Char := "]\n".toList

/-- The name of an attribute: behind a blank, and in front of an equals sign. -/
def attributeName? : List Char → Option String
  | ' ' :: text => if text.getLast? = some '=' then some (String.ofList text.dropLast) else none
  | _ => none

/-- The attributes that the pieces of a message tell: a name and a value in turn, and the end of the
message behind the last of them. -/
def readAttributes? : List (List Char) → Option (List (String × String))
  | [] => none
  | [piece] => if piece = ending then some [] else none
  | name :: value :: rest => do
    let name ← attributeName? name
    let value ← unescape? value
    return (name, String.ofList value) :: (← readAttributes? rest)

/-- Read a text that is one service message and nothing else. -/
def read? (text : String) : Option Message :=
  match splitQuotes text.toList with
  | [] => none
  | first :: rest =>
    if opening.isPrefixOf first then
      let behind := first.drop opening.length
      (readAttributes? (behind.dropWhile (· ≠ ' ') :: rest)).map fun attributes =>
        ⟨String.ofList (behind.takeWhile (· ≠ ' ')), attributes⟩
    else none

end Message

/-- How a build server is to take an event. -/
def kind : Event → String
  | .expectationMissing => "testIgnored"
  | _ => "testFailed"

/-- What a build server is told of an event. -/
def message : Event → String
  | .outputMismatch => "Output different from expected file"
  | .expectationMissing => "Expects file missing"
  | .screenshotMismatch ratio =>
    "Screenshot different from expected (" ++ percentage ratio ++ " pixels differ)"
  | .screenshotError message => message

/-- No message but that of an error needs a bar. -/
theorem plain_message_screenshotMismatch (ratio : Float) :
    Plain (message (.screenshotMismatch ratio)).toList := by
  have hfront : Plain "Screenshot different from expected (".toList := by decide +kernel
  have hback : Plain " pixels differ)".toList := by decide +kernel
  show Plain
    ("Screenshot different from expected (" ++ percentage ratio ++ " pixels differ)").toList
  rw [String.toList_append, String.toList_append]
  exact plain_append.mpr ⟨plain_append.mpr ⟨hfront, plain_percentage ratio⟩, hback⟩

theorem toList_escapeText (text : String) : (escapeText text).toList = escape text.toList := by
  rw [escapeText, String.toList_ofList]

/-- Both values of a message stand in it escaped, whether that takes any bars or not. -/
theorem toList_body (test : String) (event : Event) :
    (body test event).toList = (kind event).toList ++ (" name=".toList ++ '\'' ::
      (escape test.toList ++ '\'' :: (" message=".toList ++ '\'' ::
        (escape (message event).toList ++ ['\''])))) := by
  cases event with
  | outputMismatch =>
      have hplain : Plain "Output different from expected file".toList := by decide +kernel
      unfold body kind message
      rw [escape_of_plain hplain]
      simp [toList_escapeText]
  | expectationMissing =>
      have hplain : Plain "Expects file missing".toList := by decide +kernel
      unfold body kind message
      rw [escape_of_plain hplain]
      simp [toList_escapeText]
  | screenshotMismatch ratio =>
      rw [escape_of_plain (plain_message_screenshotMismatch ratio)]
      unfold body kind message
      simp [toList_escapeText]
  | screenshotError text =>
      unfold body kind message
      simp [toList_escapeText]

theorem kind_cases (event : Event) : kind event = "testFailed" ∨ kind event = "testIgnored" := by
  cases event with
  | expectationMissing => exact Or.inr rfl
  | outputMismatch | screenshotMismatch | screenshotError => exact Or.inl rfl

/-- The pieces of a message are those it was put together from. -/
theorem splitQuotes_line (test : String) (event : Event) :
    splitQuotes (line test event).toList
      = [Message.opening ++ ((kind event).toList ++ " name=".toList), escape test.toList,
          " message=".toList, escape (message event).toList, Message.ending] := by
  have hopening : Unquoted (Message.opening ++ ((kind event).toList ++ " name=".toList)) := by
    rcases kind_cases event with hkind | hkind <;> rw [hkind] <;> decide +kernel
  have hline : (line test event).toList
      = Message.opening ++ ((kind event).toList ++ " name=".toList) ++ '\'' ::
        (escape test.toList ++ '\'' :: (" message=".toList ++ '\'' ::
          (escape (message event).toList ++ '\'' :: Message.ending))) := by
    unfold line
    rw [String.toList_append, String.toList_append, toList_body]
    simp only [List.append_assoc, List.cons_append, List.nil_append]
    rfl
  have hbetween : Unquoted " message=".toList := by decide
  rw [hline, splitQuotes_append hopening, splitQuotes_append (unquoted_escape _),
    splitQuotes_append hbetween, splitQuotes_append (unquoted_escape _)]
  rfl

/-- An attribute in front of others, its value as it is written. -/
theorem Message.readAttributes?_cons {piece : List Char} {name : String}
    (hname : attributeName? piece = some name) (value : String) (rest : List (List Char)) :
    readAttributes? (piece :: escape value.toList :: rest)
      = (readAttributes? rest).map ((name, value) :: ·) := by
  rw [readAttributes?, hname, unescape?_escape]
  cases readAttributes? rest with
  | none => rfl
  | some attributes =>
      show some ((name, String.ofList value.toList) :: attributes) = _
      rw [String.ofList_toList]
      rfl

/-- **A message is read as it was meant.** -/
theorem Message.read?_line (test : String) (event : Event) :
    read? (line test event)
      = some ⟨TeamCity.kind event, [("name", test), ("message", TeamCity.message event)]⟩ := by
  have hkind : String.ofList (((TeamCity.kind event).toList ++ " name=".toList).takeWhile (· ≠ ' '))
        = TeamCity.kind event
      ∧ ((TeamCity.kind event).toList ++ " name=".toList).dropWhile (· ≠ ' ')
        = " name=".toList := by
    rcases kind_cases event with hkind | hkind <;> rw [hkind] <;> decide +kernel
  have hname : attributeName? " name=".toList = some "name" := by decide
  have hmessage : attributeName? " message=".toList = some "message" := by decide
  have hending : readAttributes? [ending] = some [] := rfl
  unfold read?
  rw [splitQuotes_line]
  dsimp only
  rw [if_pos (List.isPrefixOf_iff_prefix.mpr (List.prefix_append _ _)), List.drop_left, hkind.1,
    hkind.2, readAttributes?_cons hname, readAttributes?_cons hmessage, hending]
  rfl

/-- **Service messages can be neither broken nor forged.**  A sink that takes everything is given
one line for an event.  It is one message with no other end of a line in it.  Between the quotes
that stand alone there are two values and the fixed frame around them, and in the values nothing
that means something stands alone.  So the message is read as the name of the test and what is told
of the event; for an error that is its own message, whatever it is.  The same holds of values by
themselves: every text can be escaped and read again. -/
theorem annotate_reads_back (test : String) (event : Event) :
    (∀ before, Annotator.teamCity.annotate (.holding before) test event
      = ⟨.holding (before ++ line test event), []⟩) ∧
    (∃ body, line test event = "##teamcity[" ++ body ++ "]\n" ∧
      '\n' ∉ body.toList ∧ '\r' ∉ body.toList) ∧
    (∃ front name message, splitQuotes (line test event).toList
        = [front, name, " message=".toList, message, "]\n".toList] ∧
      Plain (standing name) ∧ Plain (standing message)) ∧
    Message.read? (line test event)
      = some ⟨kind event, [("name", test), ("message", message event)]⟩ ∧
    (∀ text, Message.read? (line test (.screenshotError text))
      = some ⟨"testFailed", [("name", test), ("message", text)]⟩) ∧
    ∀ value, unescape? (escape value) = some value ∧ Plain (standing (escape value)) := by
  refine ⟨fun before => Annotator.annotate_holding .teamCity before test event,
    ⟨body test event, rfl, ?_⟩, ?_, Message.read?_line test event,
    fun text => Message.read?_line test (.screenshotError text),
    fun value => ⟨unescape?_escape value, plain_standing_escape value⟩⟩
  · obtain ⟨hname, hname'⟩ := newline_notMem_escape test.toList
    obtain ⟨hmessage, hmessage'⟩ := newline_notMem_escape (message event).toList
    rw [toList_body]
    rcases kind_cases event with hkind | hkind <;> rw [hkind] <;>
      simp [hname, hname', hmessage, hmessage']
  · exact ⟨_, _, _, splitQuotes_line test event, plain_standing_escape _, plain_standing_escape _⟩

end Golden.TeamCity
