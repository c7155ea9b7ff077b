import Golden.Failure
import Golden.Picture
import Golden.Screenshot.Bitmap

/-!
# Golden.Files — the files a comparison reads and writes

`Files` is everything a run can see of the file system: which places hold a file or a directory, and
from where relative paths start.  A **place** is a list of plain names from the root; a path leads
to a place by walking, and every step of the walk must stand on an existing directory (`walk`).
That is the whole difference between a path and a place: `a/../b` and `b` are different walks to one
place, and the first one fails when there is no `a`.

Reading never changes anything.  The two ways to change something are writing a file, which touches
one place, and creating directories; each comes with the place it touches, so what a run has changed
can be read off (`find?_put_self`, `find?_put_of_ne`).

A place holds the bytes of a file or, for a picture and a bitmap, what was drawn or recorded there:
`Content.bytes` is what a reader of the file gets in each case.
-/

namespace Golden

/-- Plain names from the root. -/
abbrev Place := List String

/-- What a file holds. -/
inductive Content
  | raw (bytes : List UInt8)
  | picture (p : Picture)
  /-- A bitmap is not spelled out before somebody reads it: it can be as long as its header can
  say. -/
  | bitmap (b : PixelBuffer)
  deriving DecidableEq, Repr

def Content.bytes : Content → List UInt8
  | .raw bytes => bytes
  | .picture p => p.png
  | .bitmap b => Reference.encode b

/-- What stands at a place. -/
inductive Entry
  | file (content : Content)
  | directory
  deriving DecidableEq, Repr

/-- The visible part of the file system. -/
structure Files where
  entries : List (Place × Entry)
  /-- Where relative paths start. -/
  workingDirectory : Place
  deriving DecidableEq, Repr

namespace Files

/-- The entry at a place; the root is always a directory. -/
def find? (fs : Files) (place : Place) : Option Entry :=
  if place = [] then some .directory else fs.entries.lookup place

/-- Let an entry stand at a place, instead of whatever stood there. -/
def put (fs : Files) (place : Place) (entry : Entry) : Files :=
  { fs with entries := (place, entry) :: fs.entries.filter (·.1 != place) }

/-- Let nothing stand at a place. -/
def remove (fs : Files) (place : Place) : Files :=
  { fs with entries := fs.entries.filter (·.1 != place) }

theorem lookup_filter_of_ne {place other : Place} (h : other ≠ place) :
    ∀ entries : List (Place × Entry),
      (entries.filter (·.1 != place)).lookup other = entries.lookup other
  | [] => rfl
  | (p, e) :: rest => by
      have ih := lookup_filter_of_ne h rest
      rw [List.filter_cons]
      split
      · simp only [List.lookup_cons, ih]
      · rename_i hp
        have hp' : p = place := by simpa using hp
        have hne : (other == p) = false := by simpa [hp'] using h
        simp only [List.lookup_cons, hne, ih]

@[simp] theorem find?_put_self {fs : Files} {place : Place} {entry : Entry} (h : place ≠ []) :
    (fs.put place entry).find? place = some entry := by
  simp [find?, put, h]

theorem find?_put_of_ne {fs : Files} {place other : Place} {entry : Entry} (h : other ≠ place) :
    (fs.put place entry).find? other = fs.find? other := by
  have hne : (other == place) = false := by simp [h]
  simp only [find?, put, List.lookup_cons, hne]
  rw [lookup_filter_of_ne h]

/-! ### From paths to places -/

/-- The most bytes a name may have. -/
def nameLimit : Nat := 255

/-- The most bytes a path may have. -/
def pathLimit : Nat := 4095

/-- One step of a walk from a directory. -/
def step (place : Place) (name : String) : Except Cause Place :=
  if name = "." then .ok place
  else if name = ".." then .ok place.dropLast
  else if nameLimit < name.utf8ByteSize then .error .nameTooLong
  else .ok (place ++ [name])

/-- A walk along names; each step starts from an existing directory. -/
def walk (fs : Files) : Place → List String → Except Cause Place
  | place, [] => .ok place
  | place, name :: rest =>
    match fs.find? place with
    | none => .error .notFound
    | some (.file _) => .error .notADirectory
    | some .directory => do walk fs (← step place name) rest

/-- Where the walk along a path starts. -/
def start (fs : Files) (p : Path) : Place := if p.isAbsolute then [] else fs.workingDirectory

/-- Whether a path ends in a slash, which asks for a directory. -/
def asksForDirectory (p : Path) : Bool := p.text.toList.getLast? == some '/'

/-- Refuse what cannot be the text of a path. -/
def checkText (p : Path) : Except Cause Unit :=
  if p.text.toList.contains '\x00' then .error .nulInName
  else if p.text.isEmpty then .error .notFound
  else if pathLimit < p.text.utf8ByteSize then .error .nameTooLong
  else .ok ()

/-- The place an existing path leads to, and what stands there. -/
def resolve (fs : Files) (p : Path) : Except Cause (Place × Entry) := do
  checkText p
  let place ← fs.walk (fs.start p) (p.names ++ if asksForDirectory p then ["."] else [])
  match fs.find? place with
  | none => .error .notFound
  | some entry => return (place, entry)

def exists? (fs : Files) (p : Path) : Bool :=
  match fs.resolve p with
  | .ok _ => true
  | .error _ => false

def isDirectory (fs : Files) (p : Path) : Bool :=
  match fs.resolve p with
  | .ok (_, .directory) => true
  | _ => false

/-- The bytes of a file. -/
def read (fs : Files) (p : Path) : Except Cause (List UInt8) := do
  match ← fs.resolve p with
  | (_, .file content) => return content.bytes
  | (_, .directory) => .error .isADirectory

/-- The text of a file, which must be well-formed throughout. -/
def readText (fs : Files) (p : Path) (decode : List UInt8 → Option String) :
    Except Cause String := do
  match decode (← fs.read p) with
  | none => .error .invalidText
  | some text => return text

/-- The directory that holds what a path names, and the name; nothing for a path that ends in the
root, `.` or `..`. -/
def resolveParent (fs : Files) (p : Path) : Except Cause (Place × Option String) := do
  checkText p
  let place ← fs.walk (fs.start p) p.names.dropLast
  match fs.find? place with
  | none => .error .notFound
  | some (.file _) => .error .notADirectory
  | some .directory =>
    match p.names.getLast? with
    | none | some "." | some ".." => return (place, none)
    | some name =>
      if nameLimit < name.utf8ByteSize then .error .nameTooLong else return (place, some name)

/-! ### Changes -/

/-- The place a file is written to, once everything on the way there has been checked. -/
def target (fs : Files) (p : Path) : Except Cause Place := do
  match ← fs.resolveParent p with
  | (_, none) => .error .isADirectory
  | (place, some name) =>
    if asksForDirectory p then .error .isADirectory
    else
      match fs.find? (place ++ [name]) with
      | some .directory => .error .isADirectory
      | _ => return place ++ [name]

/-- Write a file, instead of the one that is there. -/
def write (fs : Files) (p : Path) (content : Content) : Except Cause Files := do
  return fs.put (← fs.target p) (.file content)

/-- Make one directory in an existing one. -/
def makeDirectory (fs : Files) (p : Path) : Except Cause Files := do
  match ← fs.resolveParent p with
  | (_, none) => .error .alreadyExists
  | (place, some name) =>
    match fs.find? (place ++ [name]) with
    | some _ => .error .alreadyExists
    | none => return fs.put (place ++ [name]) .directory

/-- A path and what it lies in, outermost last; the root and the empty path are left out. -/
def lineage (p : Path) : List Path := go (p.text.length + 1) p
where
  go : Nat → Path → List Path
    | 0, _ => []
    | fuel + 1, p =>
      match p.parent? with
      | none => []
      | some parent => if p.text.isEmpty then [] else p :: go fuel parent

/-- The files after a change and the cause that stopped it, if one did; what had been done by then
stays. -/
structure Change where
  files : Files
  stopped : Option Cause
  deriving DecidableEq, Repr

/-- Make the first of the given directories, and before it as many of the others as it takes. -/
def makeLineage (fs : Files) : List Path → Change
  | [] => ⟨fs, none⟩
  | p :: outer =>
    match fs.makeDirectory p with
    | .ok made => ⟨made, none⟩
    | .error .notFound =>
      let change := makeLineage fs outer
      match change.stopped with
      | some _ => change
      | none =>
        match change.files.makeDirectory p with
        | .ok made => ⟨made, none⟩
        | .error cause => ⟨change.files, if change.files.isDirectory p then none else some cause⟩
    | .error cause => ⟨fs, if fs.isDirectory p then none else some cause⟩

/-- Make a directory and all it lies in, as far as they do not exist. -/
def makeDirectories (fs : Files) (p : Path) : Change := fs.makeLineage (lineage p)

/-- Make the directory a path lies in. -/
def makeParent (fs : Files) (p : Path) : Change :=
  match p.parent? with
  | none => ⟨fs, none⟩
  | some parent => fs.makeDirectories parent

end Files

/-- The files after an attempt, and what came of it. -/
structure Attempt (α : Type) where
  files : Files
  outcome : Except Failure α

end Golden
