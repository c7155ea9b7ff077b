/-!
# Golden.Toml.Basic — what a configuration text says

A configuration text is a table: names with values, some of which are tables again.  Two things are
kept that a plain tree of values would not have.

* A table remembers how it came about (`Origin`), because that decides what may still be added to
  it.
* Dates and times are kept as they were spelled; nothing here looks inside them.
-/

namespace Golden.Toml

/-- A value without parts. -/
inductive Scalar
  | boolean (value : Bool)
  | integer (value : Int)
  | float (value : Float)
  | text (value : String)
  /-- A date, a time, or both. -/
  | moment (literal : String)

/-- How a table came about. -/
inductive Origin
  /-- By a heading of its own. -/
  | heading
  /-- By the heading of a table further inside. -/
  | passage
  /-- By a dotted key that leads through it. -/
  | keys
  /-- Between braces, complete as it stands. -/
  | braces
  deriving DecidableEq, Repr

inductive Value
  | scalar (s : Scalar)
  | array (items : List Value)
  | table (origin : Origin) (entries : List (String × Value))
  /-- The tables under a repeated heading, the last of them still open. -/
  | series (earlier : List (List (String × Value))) (last : List (String × Value))

/-- Names with values. -/
abbrev Entries := List (String × Value)

/-- The parts of a value whose parts have names, or stand for names by their order. -/
inductive Fields
  | named (entries : Entries)
  | placed (items : List Value)

namespace Fields

/-- The part with a name, or in the place of that name. -/
def get? (fields : Fields) (name : String) (place : Nat) : Option Value :=
  match fields with
  | .named entries => entries.lookup name
  | .placed items => items[place]?

end Fields

namespace Value

def boolean? : Value → Option Bool
  | .scalar (.boolean b) => some b
  | _ => none

def text? : Value → Option String
  | .scalar (.text s) => some s
  | _ => none

/-- The parts of a value.  A date or time has parts too, though none that has one of our names. -/
def fields? : Value → Option Fields
  | .table _ entries => some (.named entries)
  | .array items => some (.placed items)
  | .series earlier last => some (.placed ((earlier ++ [last]).map (.table .heading)))
  | .scalar (.moment _) => some (.named [])
  | .scalar _ => none

end Value

end Golden.Toml
