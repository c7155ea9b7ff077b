/-!
# Golden.Path — paths as users write them

A path is the text it was written as: messages show it unchanged, and only when something is looked
up or derived is it taken apart at its slashes.

## Components

Repeated slashes count once, and a `.` counts only at the very start of a relative path; `..` is
kept, because what it leads to depends on the files.  A component that is neither a root, nor `.`,
nor `..` is **plain**.

## Derived paths

* `parent?` drops the last component.
* `withExtension` replaces what follows the last dot of the last plain component, or appends an
  extension where there is none.
* `join` puts one path under another; an absolute path under anything is itself.

Joining plain names to a directory never leaves it, which is what keeps derived output files where
they belong.
-/

namespace Golden

/-- One component of a path. -/
inductive Component
  | root
  | current
  | parent
  | plain (name : String)
  deriving DecidableEq, Repr

structure Path where
  text : String
  deriving DecidableEq, Repr

namespace Path

/-- Text cut at every slash; there is always at least one piece. -/
def splitSlashes : List Char → List (List Char)
  | [] => [[]]
  | c :: rest =>
    if c = '/' then [] :: splitSlashes rest
    else
      match splitSlashes rest with
      | [] => [[c]]
      | piece :: pieces => (c :: piece) :: pieces

def isAbsolute (p : Path) : Bool := p.text.toList.head? == some '/'

/-- The names between the slashes, empty ones left out. -/
def names (p : Path) : List String :=
  ((splitSlashes p.text.toList).filter (· ≠ [])).map String.ofList

/-- A name in the middle of a path. -/
def componentOfName : String → Option Component
  | "." => none
  | ".." => some .parent
  | name => some (.plain name)

def components (p : Path) : List Component :=
  if p.isAbsolute then .root :: p.names.filterMap componentOfName
  else
    match p.names with
    | "." :: rest => .current :: rest.filterMap componentOfName
    | names => names.filterMap componentOfName

/-- The plain names of a path, in order. -/
def plainNames (p : Path) : List String :=
  p.components.filterMap fun
    | .plain name => some name
    | _ => none

/-! ### The end of a path

Slashes at the end and `.` components behind a slash say nothing; the functions below first set them
aside.  They work on the reversed text. -/

/-- The reversed text without what says nothing at its end. -/
def trimEnd : List Char → List Char
  | '/' :: rest => trimEnd rest
  | '.' :: '/' :: rest => trimEnd ('/' :: rest)
  | text => text

/-- The reversed text of a path, cut into the part before its last component and that component. -/
def splitLast (p : Path) : List Char × List Char :=
  let text := trimEnd p.text.toList.reverse
  ((text.dropWhile (· != '/')).reverse, (text.takeWhile (· != '/')).reverse)

/-- The last component, if it is plain. -/
def fileName? (p : Path) : Option (List Char) :=
  match p.splitLast.2 with
  | [] | ['.'] | ['.', '.'] => none
  | name => some name

/-- A file name cut at its last dot.  A dot in front starts a name and no extension. -/
def splitExtension (name : List Char) : List Char × Option (List Char) :=
  let reversed := name.reverse
  match reversed.dropWhile (· != '.') with
  | [] | ['.'] => (name, none)
  | _ :: stem => (stem.reverse, some (reversed.takeWhile (· != '.')).reverse)

def extension? (p : Path) : Option String :=
  p.fileName?.bind fun name => (splitExtension name).2.map String.ofList

/-- Everything but the last component; nothing for a root or an empty path. -/
def parent? (p : Path) : Option Path :=
  match p.splitLast with
  | (_, []) => none
  | (before, _) =>
    let trimmed := trimEnd before.reverse
    some ⟨String.ofList (if trimmed.isEmpty && !before.isEmpty then ['/'] else trimmed.reverse)⟩

/-- Put an extension behind the stem of the last component, dropping the one it has.  A path whose
last component is not plain is left alone. -/
def setExtension (p : Path) (extension : String) : Path :=
  match p.fileName? with
  | none => p
  | some name =>
    ⟨String.ofList (p.splitLast.1 ++ (splitExtension name).1 ++ '.' :: extension.toList)⟩

/-- Replace the extension: as many characters as the old one has are cut off the end, and the new
one is put behind what is then the stem. -/
def withExtension (p : Path) (extension : String) : Path :=
  let old := (p.extension?.getD "").length
  setExtension ⟨String.ofList (p.text.toList.take (p.text.length - old))⟩ extension

/-- `name` under the directory `dir`. -/
def join (dir name : Path) : Path :=
  if name.isAbsolute then name
  else if dir.text.isEmpty || dir.text.toList.getLast? == some '/' then ⟨dir.text ++ name.text⟩
  else ⟨dir.text ++ "/" ++ name.text⟩

end Path

end Golden
