/-!
# Golden.Diagnostic — one line of a comparison's findings

A comparison of two texts is told line by line: a line only the actual output has, a line only the
expectation has, or a pair of lines of which one stands where the other was expected.  Each line is
printed as its one-character tag, a space, and the line itself; `Diagnostic.read?` reads that form
back.
-/

namespace Golden

/-- How a line relates the two sides of a comparison. -/
inductive DiffTag
  /-- Present in the actual output only. -/
  | added
  /-- Present in the expected output only. -/
  | removed
  /-- The actual half of a substituted pair. -/
  | observed
  /-- The expected half of a substituted pair. -/
  | expected
  deriving DecidableEq, Repr

namespace DiffTag

def all : List DiffTag := [.added, .removed, .observed, .expected]

/-- The character that opens a printed diagnostic. -/
def sign : DiffTag → Char
  | .added => '+'
  | .removed => '-'
  | .observed => 'O'
  | .expected => 'E'

def ofSign? (c : Char) : Option DiffTag := all.find? (·.sign = c)

theorem ofSign?_sign : ∀ tag : DiffTag, ofSign? tag.sign = some tag
  | .added | .removed | .observed | .expected => by decide

end DiffTag

structure Diagnostic where
  tag : DiffTag
  line : String
  deriving DecidableEq, Repr

namespace Diagnostic

/-- The printed form, without a newline. -/
def text (d : Diagnostic) : String := String.ofList (d.tag.sign :: ' ' :: d.line.toList)

/-- The diagnostic a printed line stands for. -/
def read? (text : String) : Option Diagnostic :=
  match text.toList with
  | sign :: ' ' :: line => (DiffTag.ofSign? sign).map (⟨·, String.ofList line⟩)
  | _ => none

@[simp] theorem read?_text (d : Diagnostic) : read? d.text = some d := by
  simp [read?, text, DiffTag.ofSign?_sign]

/-- The lines that diagnostics are printed as, each with its newline. -/
def printedLines (ds : List Diagnostic) : List String := ds.map fun d => d.text ++ "\n"

/-- All diagnostics, one per line. -/
def printAll (ds : List Diagnostic) : String := String.join (printedLines ds)

end Diagnostic

end Golden
