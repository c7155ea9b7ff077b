import Golden.Annotation.GitHub
import Golden.Notice
import Golden.Sink
import Golden.Traced

/-!
# Golden.Annotation.Annotator — telling the build servers

An annotator knows one build server's way of putting an event.  The enabled annotators are told
every event in a fixed order.  A line that cannot be written is told to the log and otherwise
forgotten.
-/

namespace Golden

inductive Annotator
  | teamCity
  | gitHub
  deriving DecidableEq, Repr

namespace Annotator

/-- The line that puts an event. -/
def line : Annotator → String → Event → String
  | .teamCity => TeamCity.line
  | .gitHub => GitHub.line

def channel : Annotator → Channel
  | .teamCity => .teamCity
  | .gitHub => .gitHub

/-- Put one event into a sink. -/
def annotate (a : Annotator) (sink : Sink) (test : String) (event : Event) :
    Traced Notice Sink :=
  let (after, refused) := sink.write (a.line test event)
  ⟨after, refused.toList.map (.writingFailed a.channel)⟩

/-- Let several annotators put an event into the same sink, in order. -/
def annotateAll : List Annotator → Sink → String → Event → Traced Notice Sink
  | [], sink, _, _ => pure sink
  | a :: rest, sink, test, event => do
    let sink ← a.annotate sink test event
    annotateAll rest sink test event

end Annotator

end Golden
