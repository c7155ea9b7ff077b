/-!
# Golden.Json.Basic — JSON values

A value is what a JSON text says, before anybody asks what it means.  Two leaves keep more than
their usual meaning, because whether they are acceptable depends on who reads them:

* a number is kept as it was spelled (`Json.number`), since its size only matters to a reader who
  wants a number there;
* a string whose escapes name half of a surrogate pair spells no text; it is kept as `none`, and
  does no harm where nobody looks at it.
-/

namespace Golden

inductive Json
  | null
  | bool (value : Bool)
  | number (literal : List Char)
  | string (text : Option String)
  | array (items : List Json)
  | object (members : List (Option String × Json))

namespace Json

/-- A string that spells a text. -/
def text (s : String) : Json := .string (some s)

def text? : Json → Option String
  | .string t => t
  | _ => none

def bool? : Json → Option Bool
  | .bool b => some b
  | _ => none

def literal? : Json → Option (List Char)
  | .number l => some l
  | _ => none

def items? : Json → Option (List Json)
  | .array items => some items
  | _ => none

/-- The values an object has under a name. -/
def valuesAt (name : String) (members : List (Option String × Json)) : List Json :=
  (members.filter fun m => m.1 == some name).map Prod.snd

/-- The member an object has exactly once. -/
def required? (name : String) (members : List (Option String × Json)) : Option Json :=
  match valuesAt name members with
  | [value] => some value
  | _ => none

/-- The member an object may have at most once: `none` when it is repeated, and `null` stands for a
member that is not there. -/
def optional? (name : String) (members : List (Option String × Json)) : Option Json :=
  match valuesAt name members with
  | [] => some .null
  | [value] => some value
  | _ => none

end Json

end Golden
