import Golden.Annotation.TeamCity

/-!
# Golden.Annotation.GitHub — workflow commands

A workflow command is a line `::error file=…::…`.  The test name and the message stand in it as they
are.
-/

namespace Golden.GitHub

def message (test : String) : Event → String
  | .outputMismatch => "Incorrect output for " ++ test
  | .expectationMissing => "Expected file missing for " ++ test
  | .screenshotMismatch ratio =>
    "Screenshot different from expected for " ++ test ++ " (" ++ TeamCity.percentage ratio
      ++ " pixels differ)"
  | .screenshotError message => "Screenshot comparison failed for " ++ test ++ ": " ++ message

/-- The workflow command for an event, with its newline. -/
def line (test : String) (event : Event) : String :=
  "::error file=" ++ test ++ "::" ++ message test event ++ "\n"

end Golden.GitHub
