import Golden.Toml.Basic

/-!
# Golden.Toml.Table — one table out of many statements

Every statement of a text adds to one table.  A heading opens a table, a repeated heading the next
table of a series, and a key with its value is added to the table opened last.  Both kinds of names
may have several parts; all but the last lead through tables, which are made where they are missing.

What is complete must stay as it is:

* nothing is defined twice;
* a heading may open a table that was only led through before, but not one that was opened, written
  between braces, or made by a dotted key;
* a dotted key leads neither through a table that was opened by its own heading nor through one
  between braces, and what it adds to must be a table made by dotted keys.
-/

namespace Golden.Toml

/-- What leads through a table. -/
inductive Route
  | heading
  | key
  deriving DecidableEq, Repr

/-- How a table comes about that was missing on the way. -/
def Route.origin : Route → Origin
  | .heading => .passage
  | .key => .keys

/-- Whether a table may be led through. -/
def Origin.admits : Origin → Route → Bool
  | .braces, _ => false
  | .heading, .key => false
  | _, _ => true

namespace Entries

/-- Give the entry with a name another value. -/
def replace (entries : Entries) (name : String) (value : Value) : Entries :=
  entries.map fun e => if e.1 == name then (name, value) else e

/-- Add an entry with a new name. -/
def define (entries : Entries) (name : String) (value : Value) : Option Entries :=
  match entries.lookup name with
  | none => some (entries ++ [(name, value)])
  | some _ => none

/-- Open the table with a name. -/
def openTable (entries : Entries) (name : String) : Option Entries :=
  match entries.lookup name with
  | none => some (entries ++ [(name, .table .heading [])])
  | some (.table .passage inner) => some (entries.replace name (.table .heading inner))
  | some _ => none

/-- Open the next table of the series with a name. -/
def openNext (entries : Entries) (name : String) : Option Entries :=
  match entries.lookup name with
  | none => some (entries ++ [(name, .series [] [])])
  | some (.series earlier last) => some (entries.replace name (.series (earlier ++ [last]) []))
  | some _ => none

/-- Change the table at the end of a path, making the missing ones on the way. -/
def change (route : Route) (act : Origin → Entries → Option Entries) :
    (path : List String) → Origin → Entries → Option Entries
  | [], origin, entries => act origin entries
  | name :: path, _, entries =>
    match entries.lookup name with
    | none => do
      let inner ← change route act path route.origin []
      return entries ++ [(name, .table route.origin inner)]
    | some (.table origin inner) =>
      if origin.admits route then do
        return entries.replace name (.table origin (← change route act path origin inner))
      else none
    | some (.series earlier last) => do
      return entries.replace name (.series earlier (← change route act path .heading last))
    | some _ => none

end Entries

/-- A name of one or more parts, all but the last leading through tables. -/
structure Key where
  outer : List String
  last : String
  deriving DecidableEq, Repr

/-- Add a key with its value to a table. -/
def Entries.add (entries : Entries) (origin : Origin) (key : Key) (value : Value) :
    Option Entries :=
  entries.change .key
    (fun reached inner =>
      if key.outer ≠ [] ∧ reached ≠ .keys then none else inner.define key.last value)
    key.outer origin

/-- The table between braces that holds some keys with their values. -/
def tableOfPairs (pairs : List (Key × Value)) : Option Value := do
  let entries ←
    pairs.foldlM (fun (entries : Entries) (key, value) => entries.add .braces key value) []
  return .table .braces entries

/-- One statement of a text. -/
inductive Statement
  | heading (key : Key)
  | repeatedHeading (key : Key)
  | entry (key : Key) (value : Value)

/-- What has been said so far, and the way to the table opened last. -/
structure Draft where
  entries : Entries
  opened : List String

namespace Draft

def empty : Draft := ⟨[], []⟩

def add (d : Draft) : Statement → Option Draft
  | .heading key => do
    let entries ←
      d.entries.change .heading (fun _ inner => inner.openTable key.last) key.outer .heading
    return ⟨entries, key.outer ++ [key.last]⟩
  | .repeatedHeading key => do
    let entries ←
      d.entries.change .heading (fun _ inner => inner.openNext key.last) key.outer .heading
    return ⟨entries, key.outer ++ [key.last]⟩
  | .entry key value => do
    let entries ←
      d.entries.change .heading (fun origin inner => inner.add origin key value) d.opened .heading
    return { d with entries }

end Draft

/-- The table that statements make. -/
def tableOfStatements (statements : List Statement) : Option Entries := do
  return (← statements.foldlM Draft.add Draft.empty).entries

end Golden.Toml
