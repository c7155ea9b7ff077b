import Golden.Json.Basic
import Golden.Text.Hex

/-!
# Golden.Json.Quoted — strings between quotes

Written strings escape the quote, the backslash and the control characters below U+0020, and nothing
else: five of the controls by a letter, the others by four hexadecimal digits.  Read strings may
escape anything that JSON allows.

Reading takes two steps.  `scan` cuts the characters up to the closing quote into items: a
character, or a code unit that was given by its number.  `textOf?` then puts the units together: a
high surrogate and the low one right behind it are one character, and a surrogate on its own spells
nothing.
-/

namespace Golden.Json

/-- The letter behind a backslash for the characters that have one. -/
def shortEscape? : Char → Option Char
  | '"' => some '"'
  | '\\' => some '\\'
  | '\x08' => some 'b'
  | '\x09' => some 't'
  | '\x0a' => some 'n'
  | '\x0c' => some 'f'
  | '\x0d' => some 'r'
  | _ => none

/-- The character a letter behind a backslash stands for. -/
def ofShortEscape? : Char → Option Char
  | '"' => some '"'
  | '\\' => some '\\'
  | '/' => some '/'
  | 'b' => some '\x08'
  | 't' => some '\x09'
  | 'n' => some '\x0a'
  | 'f' => some '\x0c'
  | 'r' => some '\x0d'
  | _ => none

def escapeChar (c : Char) : List Char :=
  match shortEscape? c with
  | some letter => ['\\', letter]
  | none =>
    if c.toNat < 0x20 then
      ['\\', 'u', '0', '0', Text.Hex.lower (c.toNat / 16), Text.Hex.lower (c.toNat % 16)]
    else [c]

/-- A string between its quotes. -/
def quote (text : List Char) : List Char := '"' :: text.flatMap escapeChar ++ ['"']

/-- The value of four hexadecimal digits. -/
def unitValue? (a b c d : Char) : Option Nat := do
  let high := (← Text.Hex.value? a) * 16 + (← Text.Hex.value? b)
  let low := (← Text.Hex.value? c) * 16 + (← Text.Hex.value? d)
  return high * 256 + low

/-- A piece of a string: a character, or a code unit given by its number. -/
inductive Item
  | char (c : Char)
  | unit (n : Nat)
  deriving DecidableEq, Repr

/-- The items up to the closing quote, and what follows it. -/
def scan : List Char → Option (List Item × List Char)
  | [] => none
  | '"' :: rest => some ([], rest)
  | '\\' :: 'u' :: a :: b :: c :: d :: rest => do
    let n ← unitValue? a b c d
    let (items, later) ← scan rest
    return (.unit n :: items, later)
  | '\\' :: letter :: rest => do
    let c ← ofShortEscape? letter
    let (items, later) ← scan rest
    return (.char c :: items, later)
  | c :: rest =>
    if c.toNat < 0x20 ∨ c = '\\' then none
    else do
      let (items, later) ← scan rest
      return (.char c :: items, later)

def isHighSurrogate (n : Nat) : Bool := 0xD800 ≤ n && n ≤ 0xDBFF

def isLowSurrogate (n : Nat) : Bool := 0xDC00 ≤ n && n ≤ 0xDFFF

/-- The text that items spell, if every surrogate is one half of a pair. -/
def textOf? : List Item → Option (List Char)
  | [] => some []
  | .char c :: rest => (textOf? rest).map (c :: ·)
  | .unit high :: .unit low :: rest =>
    if isHighSurrogate high then
      if isLowSurrogate low then
        (textOf? rest).map
          (Char.ofNat ((high - 0xD800) * 0x400 + (low - 0xDC00) + 0x10000) :: ·)
      else none
    else if isLowSurrogate high then none
    else (textOf? (.unit low :: rest)).map (Char.ofNat high :: ·)
  | .unit n :: rest =>
    if isHighSurrogate n || isLowSurrogate n then none
    else (textOf? rest).map (Char.ofNat n :: ·)

/-- A string whose opening quote has been read. -/
def readString (rest : List Char) : Option (Option String × List Char) :=
  (scan rest).map fun (items, later) => ((textOf? items).map String.ofList, later)

end Golden.Json
