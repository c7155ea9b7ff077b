import Golden.Toml.Number
import Golden.Toml.Quoted

/-!
# Golden.Toml.Printer — sections as text

A text is written in sections: first the entries that stand in no table, then one section for each
table, its heading in brackets in front.  Every entry has a line of its own and an empty line stands
between two sections.  Names are written as they are, so they must be bare.
-/

namespace Golden.Toml

def Scalar.write : Scalar → List Char
  | .boolean true => ['t', 'r', 'u', 'e']
  | .boolean false => ['f', 'a', 'l', 's', 'e']
  | .integer n => writeInteger n
  | .float x => writeFloat x
  | .text s => Toml.write s.toList
  | .moment literal => literal.toList

/-- The entries of one table; the outermost has no heading. -/
structure Section where
  heading : Option String
  entries : List (String × Scalar)

/-- The line of an entry. -/
def writeEntry (name : String) (value : Scalar) : List Char :=
  name.toList ++ [' ', '=', ' '] ++ value.write ++ ['\n']

namespace Section

def write (s : Section) : List Char :=
  let heading := match s.heading with
    | none => []
    | some name => '[' :: name.toList ++ [']', '\n']
  heading ++ s.entries.flatMap fun (name, value) => writeEntry name value

end Section

/-- The text of several sections. -/
def writeSections : List Section → List Char
  | [] => []
  | [s] => s.write
  | s :: rest => s.write ++ '\n' :: writeSections rest

end Golden.Toml
