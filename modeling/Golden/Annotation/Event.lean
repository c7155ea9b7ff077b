/-!
# Golden.Annotation.Event — what a build server should hear about

A comparison that fails tells the build server so, with at most one event.
-/

namespace Golden

/-- Something a build server should hear about. -/
inductive Event
  /-- Text output differed from its expectation file. -/
  | outputMismatch
  /-- There is no expectation file for the test. -/
  | expectationMissing
  /-- More pixels differ than is tolerated. -/
  | screenshotMismatch (ratio : Float)
  /-- The screenshot could not be compared at all. -/
  | screenshotError (message : String)

end Golden
