import Golden.Json.Parser
import Golden.Json.Printer
import Golden.Report.Basic

/-!
# Golden.Report.Json — reports as JSON

A report is written as an object with its fields in a fixed order; an error ratio or an error that
is not there is left out, and a ratio that is no finite number is `null`.

Reading is more lenient than writing.  Members may come in any order, unknown ones are passed over,
and `null` stands for an optional one that is not there; but a known member may not be repeated, and
a required one may not be missing.  Objects may also be given as arrays of all their fields in
order, and a word as an object with that word as its only name and `null` under it.
-/

namespace Golden

namespace DiffTag

/-- A tag's word in a report. -/
def name : DiffTag → String
  | .added => "added"
  | .removed => "removed"
  | .observed => "observed"
  | .expected => "expected"

def ofName? (name : String) : Option DiffTag := all.find? (·.name = name)

end DiffTag

/-- The word a value gives, plainly or as the only name of an object. -/
def Json.word? : Json → Option String
  | .string text => text
  | .object [(name, .null)] => name
  | _ => none

/-- An optional value: `null` stands for none. -/
def Json.orNull {α : Type} (read : Json → Option α) : Json → Option (Option α)
  | .null => some none
  | j => (read j).map some

namespace Diagnostic

def toJson (d : Diagnostic) : Json :=
  .object [(some "tag", .text d.tag.name), (some "line", .text d.line)]

def ofFields? (tag line : Json) : Option Diagnostic := do
  let tag ← tag.word?.bind DiffTag.ofName?
  let line ← line.text?
  return ⟨tag, line⟩

def ofJson? : Json → Option Diagnostic
  | .array [tag, line] => ofFields? tag line
  | .object members => do
    if members.all (·.1.isSome) then
      ofFields? (← Json.required? "tag" members) (← Json.required? "line" members)
    else none
  | _ => none

end Diagnostic

namespace Report

/-- The value of an error ratio: `null` when it is no finite number. -/
def ratioJson (ratio : Float) : Json :=
  match Json.numberLiteral? ratio with
  | some literal => .number literal
  | none => .null

def toJson (r : Report) : Json :=
  .object <|
    [(some "test_name", .text r.test), (some "kind", .text r.kind.name),
      (some "passed", .bool r.passed), (some "diagnostics", .array (r.diagnostics.map (·.toJson)))]
    ++ r.errorRatio.toList.map (fun ratio => (some "error_ratio", ratioJson ratio))
    ++ r.error.toList.map (fun error => (some "error", .text error))

def toText (r : Report) : String := r.toJson.toText

def ofFields? (test kind passed diagnostics ratio error : Json) : Option Report := do
  let test ← test.text?
  let kind ← kind.word?.bind Kind.ofName?
  let passed ← passed.bool?
  let diagnostics ← (← diagnostics.items?).mapM Diagnostic.ofJson?
  let ratio ← Json.orNull (fun j => j.literal?.bind Json.numberValue?) ratio
  let error ← Json.orNull Json.text? error
  return ⟨test, kind, passed, diagnostics, ratio, error⟩

def ofJson? : Json → Option Report
  | .array [test, kind, passed, diagnostics, ratio, error] =>
    ofFields? test kind passed diagnostics ratio error
  | .object members => do
    if members.all (·.1.isSome) then
      ofFields? (← Json.required? "test_name" members) (← Json.required? "kind" members)
        (← Json.required? "passed" members) (← Json.required? "diagnostics" members)
        (← Json.optional? "error_ratio" members) (← Json.optional? "error" members)
    else none
  | _ => none

/-- The report a text spells. -/
def ofText? (text : String) : Option Report := (Json.parse text).bind ofJson?

end Report

end Golden
