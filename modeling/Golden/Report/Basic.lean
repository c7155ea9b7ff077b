import Golden.Diagnostic
import Golden.Screenshot.Score

/-!
# Golden.Report.Basic — the outcome of one comparison

A report says which test was compared, how, and whether it passed.  A comparison of texts lists its
diagnostics, one of screenshots gives its error ratio, and a comparison that could not be made gives
its error — and, for a screenshot, the sentinel in place of a ratio.
-/

namespace Golden

/-- What a comparison compares. -/
inductive Kind
  | output
  | screenshot
  deriving DecidableEq, Repr

def Kind.name : Kind → String
  | .output => "output"
  | .screenshot => "screenshot"

def Kind.all : List Kind := [.output, .screenshot]

def Kind.ofName? (name : String) : Option Kind := Kind.all.find? (·.name = name)

/-- The outcome of one comparison. -/
structure Report where
  test : String
  kind : Kind
  passed : Bool
  diagnostics : List Diagnostic
  errorRatio : Option Float
  error : Option String

namespace Report

/-- The report of a comparison that could not be made. -/
def failed (test : String) (kind : Kind) (error : String) : Report :=
  ⟨test, kind, false, [], if kind = .screenshot then some Score.sentinel else none, some error⟩

/-- How many diagnostics carry a tag. -/
def count (r : Report) (tag : DiffTag) : Nat := r.diagnostics.countP (·.tag = tag)

/-- The diagnostics as they are printed. -/
def diagnosticsText (r : Report) : String := Diagnostic.printAll r.diagnostics

/-- The outcome in a few words: the error, if there is one. -/
def summary (r : Report) : String :=
  match r.error with
  | some error => error
  | none =>
    match r.kind with
    | .output =>
      if r.passed then "output matches"
      else "output differs (" ++ toString r.diagnostics.length ++ " diagnostic line(s))"
    | .screenshot => "screenshot error ratio " ++ Decimal.fixed 4 (r.errorRatio.getD 0)

end Report

end Golden
