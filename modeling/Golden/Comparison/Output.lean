import Golden.Files
import Golden.Line.Alignment
import Golden.Notice
import Golden.Report.Basic

/-!
# Golden.Comparison.Output — output against an expectation file

The lines of the output are aligned with the lines of the expectation file, and the test has passed
if they agree.  An expectation that cannot be opened is missing, which is told as such and is not a
mismatch.  One that can be opened but not read to its end is compared as far as it goes: a directory
counts as an expectation of a single blank line.

A comparison sees of an expectation what opening it gave, that is, a cause or the reads to come;
among the visible files only a directory has a read that fails.
-/

namespace Golden

/-- What reading an entry of the file system delivers. -/
def Entry.deliveries : Entry → List Delivery
  | .file content => [.bytes content.bytes]
  | .directory => [.failure .isADirectory]

/-- Open what a path names for reading: the reads to come. -/
def Files.deliveries (fs : Files) (p : Path) : Except Cause (List Delivery) := do
  let (_, entry) ← fs.resolve p
  return entry.deliveries

/-- The report of an alignment. -/
def Report.ofAlignment (test : String) (alignment : Alignment) : Report :=
  ⟨test, .output, alignment.isMatch, alignment.diagnostics, none, none⟩

/-- What is told at the end of a comparison of texts. -/
def Report.outputNotice (r : Report) (expectation : Path) : Notice :=
  if r.passed then .outputMatches r.test expectation
  else .outputDiffers r.test expectation r.diagnostics.length

/-- Both texts in full; the one expected only as far as it can be read as text. -/
def fullTexts (passed : Bool) (test : String) (expected : Option String) (output : String) :
    List String :=
  if passed then
    ["++++++++++++++ The Equal Output +++++++++++++\n", output,
      "+++++++++++++++++++++++++++++++++++++++++++++\n"]
  else
    ["============== output from failed " ++ test ++ ":\n", output,
      "============== expected output:\n"]
      ++ expected.toList ++ ["===============================\n"]

end Golden
