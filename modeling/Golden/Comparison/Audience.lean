import Golden.Annotation.Annotator

/-!
# Golden.Comparison.Audience — who is told of a comparison

An audience is everything that listens: a record of the events, the sink of the build servers'
annotations, and the sink of the printed output.  A sink that refuses a text is told to the log, and
whoever told it goes on.
-/

namespace Golden

structure Audience where
  /-- Every event so far, with the name of its test. -/
  heard : List (String × Event)
  annotations : Sink
  output : Sink

namespace Audience

/-- An audience that has heard nothing yet and takes everything. -/
def attentive : Audience := ⟨[], .unlimited, .unlimited⟩

/-- Hand an event on, to the record and to every annotator. -/
def announce (annotators : List Annotator) (test : String) (a : Audience) (event : Event) :
    Traced Notice Audience := do
  let annotations ← Annotator.annotateAll annotators a.annotations test event
  return { a with annotations, heard := a.heard ++ [(test, event)] }

/-- Print some texts, up to the first that is refused. -/
def print (a : Audience) (channel : Channel) (texts : List String) : Traced Notice Audience :=
  let (output, refused) := a.output.writeAll texts
  ⟨{ a with output }, refused.toList.map (.writingFailed channel)⟩

end Audience

end Golden
