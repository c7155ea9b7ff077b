import Golden.Screenshot.Reference

/-!
# Golden.Screenshot.Recording — captures as new references

A capture becomes a reference in two steps: it is brought into the canonical form of the view, and
that is written.  Nothing is touched before the first step has succeeded, and only the first one can
be broken off.
-/

namespace Golden

/-- Which step came to nothing, and why. -/
inductive RecordingProblem
  | normalizing (obstacle : Obstacle)
  | writing (failure : Failure)

namespace RecordingProblem

/-- The failure to be reported, if there is one. -/
def failure? : RecordingProblem → Option Failure
  | .normalizing (.failure failure) | .writing failure => some failure
  | .normalizing .overrun => none

end RecordingProblem

/-- The files after an attempt to record, and what kept it from succeeding, if anything did. -/
structure Recording where
  files : Files
  problem : Option RecordingProblem

namespace Recording

/-- **Record a capture** as the reference at a path. -/
def ofCapture (fs : Files) (p : Path) (capture : Capture) (v : View) : Traced Notice Recording := do
  match ← capture.normalizeTraced v.stride v.height with
  | .error obstacle => return ⟨fs, some (.normalizing obstacle)⟩
  | .ok buffer =>
    let attempt ← Reference.writeTraced fs p buffer
    match attempt.outcome with
    | .error failure => return ⟨attempt.files, some (.writing failure)⟩
    | .ok () => return ⟨attempt.files, none⟩

end Recording

end Golden
