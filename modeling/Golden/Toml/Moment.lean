import Golden.Decimal.Read

/-!
# Golden.Toml.Moment — dates and times

A date is `year-month-day`, a time `hour:minute:second` with as many decimals as one likes.  A time
may follow a date behind `T` or one blank, and only then may an offset from universal time follow
it.  Every part must be in its range; that includes the length of the month, and leap years.

`dropMoment` recognizes all this and says what follows it.  Where a date is followed by something
that is no time, the date stands alone.
-/

namespace Golden.Toml

open Golden.Decimal (isDigit valueOfDigits)

/-- Exactly `count` digits, and what follows them. -/
def fixedDigits (count : Nat) (text : List Char) : Option (Nat × List Char) :=
  let digits := text.take count
  if digits.length = count ∧ digits.all isDigit then some (valueOfDigits digits, text.drop count)
  else none

/-- Two digits within a range. -/
def twoDigits (low high : Nat) (text : List Char) : Option (Nat × List Char) := do
  let (value, rest) ← fixedDigits 2 text
  if low ≤ value ∧ value ≤ high then some (value, rest) else none

/-- What follows a character, if the text starts with it. -/
def dropChar (c : Char) : List Char → Option (List Char)
  | [] => none
  | d :: rest => if d = c then some rest else none

def isLeapYear (year : Nat) : Bool := year % 4 == 0 && (year % 100 != 0 || year % 400 == 0)

def daysOfMonth (year month : Nat) : Nat :=
  if month = 2 then if isLeapYear year then 29 else 28
  else if month = 4 ∨ month = 6 ∨ month = 9 ∨ month = 11 then 30
  else 31

def dropDate (text : List Char) : Option (List Char) := do
  let (year, rest) ← fixedDigits 4 text
  let (month, rest) ← twoDigits 1 12 (← dropChar '-' rest)
  let (_, rest) ← twoDigits 1 (daysOfMonth year month) (← dropChar '-' rest)
  return rest

def dropHourMinute (text : List Char) : Option (List Char) := do
  let (_, rest) ← twoDigits 0 23 text
  let (_, rest) ← twoDigits 0 59 (← dropChar ':' rest)
  return rest

/-- Decimals of a second, if there are any. -/
def dropDecimals : List Char → List Char
  | '.' :: c :: rest => if isDigit c then rest.dropWhile isDigit else '.' :: c :: rest
  | rest => rest

/-- A time; a leap second counts. -/
def dropTime (text : List Char) : Option (List Char) := do
  let rest ← dropHourMinute text
  let (_, rest) ← twoDigits 0 60 (← dropChar ':' rest)
  return dropDecimals rest

/-- An offset from universal time, if there is one. -/
def dropOffset : List Char → List Char
  | [] => []
  | c :: rest =>
    if c = 'Z' ∨ c = 'z' then rest
    else if c = '+' ∨ c = '-' then (dropHourMinute rest).getD (c :: rest)
    else c :: rest

/-- What follows a date, a time or both. -/
def dropMoment (text : List Char) : Option (List Char) :=
  match dropDate text with
  | none => dropTime text
  | some [] => some []
  | some (c :: rest) =>
    if c = 'T' ∨ c = 't' ∨ c = ' ' then
      match dropTime rest with
      | some later => some (dropOffset later)
      | none => some (c :: rest)
    else some (c :: rest)

end Golden.Toml
