import Golden.Failure

/-!
# Golden.CommandLine.Complaint — failures as a command reports them

A command that cannot do its work says what it was doing and why that failed.  The headline comes
first; the causes follow it, each indented on a line of its own, and numbered if there are several.
-/

namespace Golden.CommandLine

structure Complaint where
  headline : String
  causes : List String
  deriving DecidableEq, Repr

namespace Complaint

/-- A failure with what lies behind it. -/
def chainOf (failure : Failure) : List String :=
  failure.message :: failure.source?.toList.map Cause.message

/-- A failure on its own. -/
def ofFailure (failure : Failure) : Complaint := ⟨failure.message, (chainOf failure).drop 1⟩

/-- A failure in the middle of a task. -/
def during (task : String) (failure : Failure) : Complaint := ⟨task, chainOf failure⟩

/-- A file or stream that refused in the middle of a task. -/
def duringAccess (task : String) (cause : Cause) : Complaint := ⟨task, [cause.message]⟩

/-- One of several causes. -/
def numberedCause (number : Nat) (cause : String) : String :=
  "\n    " ++ toString number ++ ": " ++ cause

def text (c : Complaint) : String :=
  let causes := match c.causes with
    | [] => ""
    | [cause] => "\n\nCaused by:\n    " ++ cause
    | causes => "\n\nCaused by:" ++ String.join (causes.mapIdx numberedCause)
  "Error: " ++ c.headline ++ causes ++ "\n"

end Complaint

end Golden.CommandLine
