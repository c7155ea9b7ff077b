/-!
# Golden.Text.Utf8 — bytes to text, strictly or with replacement characters

Captured output and expectation files are bytes; lines are text.  Decoding is one scan over the
bytes by a machine that is either between characters or inside one (`Pending`).  The scan yields one
item per character and one `none` per **maximal ill-formed piece**: the longest run of bytes that
starts some well-formed character but does not finish it, or a single byte that starts none.

* `decodeLossy` writes U+FFFD for each ill-formed piece;
* `decode?` succeeds only where there is none.

Both read the same scan, so they cannot disagree about where a character ends.  A newline byte is
never part of a longer character, so a line break always brings the machine back between characters:
`scan_append_newline` is why decoding line by line and decoding a whole text give the same result.
-/

namespace Golden.Text.Utf8

/-- A character in progress: the next byte must lie in `[low, high]`, `owed` more follow it, and
`bits` holds the payload read so far. -/
structure Pending where
  owed : Nat
  low : UInt8
  high : UInt8
  bits : Nat
  deriving DecidableEq, Repr

/-- What one byte does to the machine. -/
inductive Step
  | char (c : Char)
  | inside (p : Pending)
  | illFormed
  deriving DecidableEq, Repr

/-- A byte met between two characters.  The second byte of a character is confined so that no
overlong form, no surrogate and nothing above U+10FFFF can be spelled. -/
def first (b : UInt8) : Step :=
  if b ≤ 0x7F then .char (Char.ofNat b.toNat)
  else if b < 0xC2 then .illFormed
  else if b ≤ 0xDF then .inside ⟨0, 0x80, 0xBF, b.toNat - 0xC0⟩
  else if b = 0xE0 then .inside ⟨1, 0xA0, 0xBF, 0⟩
  else if b = 0xED then .inside ⟨1, 0x80, 0x9F, 0xD⟩
  else if b ≤ 0xEF then .inside ⟨1, 0x80, 0xBF, b.toNat - 0xE0⟩
  else if b = 0xF0 then .inside ⟨2, 0x90, 0xBF, 0⟩
  else if b ≤ 0xF3 then .inside ⟨2, 0x80, 0xBF, b.toNat - 0xF0⟩
  else if b = 0xF4 then .inside ⟨2, 0x80, 0x8F, 4⟩
  else .illFormed

/-- A byte met inside a character. -/
def Pending.next (p : Pending) (b : UInt8) : Step :=
  if p.low ≤ b ∧ b ≤ p.high then
    let bits := p.bits * 64 + (b.toNat - 0x80)
    match p.owed with
    | 0 => .char (Char.ofNat bits)
    | owed + 1 => .inside ⟨owed, 0x80, 0xBF, bits⟩
  else .illFormed

/-- The characters of a byte sequence, with `none` for each maximal ill-formed piece.  A byte that
breaks a character off is looked at again as the first byte of the next. -/
def scan : Option Pending → List UInt8 → List (Option Char)
  | none, [] => []
  | some _, [] => [none]
  | none, b :: rest =>
    match first b with
    | .char c => some c :: scan none rest
    | .inside p => scan (some p) rest
    | .illFormed => none :: scan none rest
  | some p, b :: rest =>
    match p.next b with
    | .char c => some c :: scan none rest
    | .inside q => scan (some q) rest
    | .illFormed =>
      match first b with
      | .char c => none :: some c :: scan none rest
      | .inside q => none :: scan (some q) rest
      | .illFormed => none :: none :: scan none rest

/-- Stands for an ill-formed piece. -/
def replacement : Char := '\uFFFD'

def decodeLossy (bytes : List UInt8) : List Char :=
  (scan none bytes).map (·.getD replacement)

def decode? (bytes : List UInt8) : Option (List Char) :=
  (scan none bytes).mapM id

def encode (text : List Char) : List UInt8 :=
  text.flatMap String.utf8EncodeChar

def newline : UInt8 := 0x0A

theorem first_newline : first newline = .char '\n' := by decide

/-- Inside a character only bytes from `0x80` on are welcome. -/
def Pending.Confined (p : Pending) : Prop := 0x80 ≤ p.low

theorem first_confined {b : UInt8} {p : Pending} (h : first b = .inside p) : p.Confined := by
  unfold first at h
  repeat' split at h
  all_goals cases h
  all_goals simp [Pending.Confined]

theorem Pending.next_confined {p q : Pending} {b : UInt8} (h : p.next b = .inside q) :
    q.Confined := by
  unfold Pending.next at h
  repeat' split at h
  all_goals cases h
  simp [Pending.Confined]

theorem Pending.next_newline {p : Pending} (h : p.Confined) : p.next newline = .illFormed := by
  unfold Pending.next
  rw [if_neg]
  rintro ⟨hl, -⟩
  have : (0x80 : UInt8) ≤ newline := UInt8.le_trans h hl
  exact absurd this (by decide)

/-- A newline leaves the machine between characters, whatever came before it. -/
theorem scan_append_newline (rest : List UInt8) :
    ∀ (bytes : List UInt8) (state : Option Pending), (∀ p ∈ state, p.Confined) →
      scan state (bytes ++ newline :: rest) = scan state (bytes ++ [newline]) ++ scan none rest
  | [], none, _ => by simp [scan, first_newline]
  | [], some p, h => by simp [scan, first_newline, Pending.next_newline (h p rfl)]
  | b :: bytes, none, _ => by
      have ih := scan_append_newline rest bytes
      simp only [List.cons_append, scan]
      split
      · simp [ih none (by simp)]
      · rename_i p hp
        exact ih (some p) (by simpa using first_confined hp)
      · simp [ih none (by simp)]
  | b :: bytes, some p, _ => by
      have ih := scan_append_newline rest bytes
      simp only [List.cons_append, scan]
      split
      · simp [ih none (by simp)]
      · rename_i q hq
        exact ih (some q) (by simpa using Pending.next_confined hq)
      · split
        · simp [ih none (by simp)]
        · rename_i q hq
          simp [ih (some q) (by simpa using first_confined hq)]
        · simp [ih none (by simp)]

/-- **Decoding never looks across a line break.** -/
theorem decodeLossy_append_newline (bytes rest : List UInt8) :
    decodeLossy (bytes ++ newline :: rest)
      = decodeLossy (bytes ++ [newline]) ++ decodeLossy rest := by
  simp [decodeLossy, scan_append_newline rest bytes none (by simp)]

end Golden.Text.Utf8

namespace Golden

/-- The text of a byte sequence, U+FFFD standing for each ill-formed piece. -/
def textOfBytes (bytes : List UInt8) : String :=
  String.ofList (Text.Utf8.decodeLossy bytes)

/-- The text of a byte sequence that is well-formed throughout. -/
def textOfBytes? (bytes : List UInt8) : Option String :=
  (Text.Utf8.decode? bytes).map String.ofList

def bytesOfText (text : String) : List UInt8 :=
  Text.Utf8.encode text.toList

end Golden
