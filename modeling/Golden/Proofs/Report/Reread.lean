import Golden.Proofs.Json.Printed
import Golden.Report.Json

/-!
# Golden.Proofs.Report.Reread — reports read back from their JSON

A report is written as one value and read back as another, and in between there is text.  The text
is the concern of `Golden.Proofs.Json.Printed`; what is left here is that the value of a report
gives the report again.  Each word of a tag or a kind stands for that tag or kind alone, each member
stands in its object once, and one that was left out is read as not being there.

**So a report is read back from its text, field by field** (`Report.ofText?_toText`), whatever its
strings hold and however many diagnostics it has.  Only a ratio is subject to a condition: its own
spelling has to give it back (`Json.ReadsBack`), which is nothing that a report could add to.
-/

namespace Golden

/-- A number that its spelling gives back. -/
def Json.ReadsBack (x : Float) : Prop := (numberLiteral? x).bind numberValue? = some x

instance (x : Float) : Decidable (Json.ReadsBack x) :=
  inferInstanceAs (Decidable (_ = _))

/-- What gives a number back is its spelling, and is spelled as a number. -/
theorem Json.ReadsBack.spelled {x : Float} (h : ReadsBack x) :
    ∃ literal, numberLiteral? x = some literal ∧ numberValue? literal = some x
      ∧ ∃ s, scanSpelling literal = some (s, []) := by
  obtain ⟨literal, hliteral, hvalue⟩ := Option.bind_eq_some_iff.mp h
  refine ⟨literal, hliteral, hvalue, ?_⟩
  unfold numberValue? at hvalue
  split at hvalue
  · rename_i s hscan
    exact ⟨s, hscan⟩
  · cases hvalue

/-! ## Diagnostics -/

theorem DiffTag.ofName?_name (tag : DiffTag) : ofName? tag.name = some tag := by
  cases tag <;> decide

theorem Kind.ofName?_name (kind : Kind) : ofName? kind.name = some kind := by
  cases kind <;> decide

namespace Diagnostic

theorem ofJson?_toJson (d : Diagnostic) : ofJson? d.toJson = some d := by
  have hread : ofFields? (.text d.tag.name) (.text d.line) = some d := by
    simp [ofFields?, Json.word?, Json.text, Json.text?, DiffTag.ofName?_name]
  simpa [ofJson?, toJson, Json.required?, Json.valuesAt] using hread

theorem mapM_ofJson? (ds : List Diagnostic) : (ds.map toJson).mapM ofJson? = some ds := by
  induction ds with
  | nil => rfl
  | cons d ds ih => simp [ofJson?_toJson, ih]

theorem itemsWellSpelled_map_toJson (ds : List Diagnostic) :
    Json.ItemsWellSpelled (ds.map toJson) := by
  induction ds with
  | nil => trivial
  | cons d ds ih => exact ⟨⟨trivial, trivial, trivial⟩, ih⟩

end Diagnostic

/-! ## Reports -/

namespace Report

variable {r : Report}

/-- The numbers of a report are the ratio's spelling at most. -/
theorem wellSpelled_toJson (h : ∀ ratio ∈ r.errorRatio, Json.ReadsBack ratio) :
    r.toJson.WellSpelled := by
  obtain ⟨test, kind, passed, diagnostics, ratio, error⟩ := r
  have hdiagnostics := Diagnostic.itemsWellSpelled_map_toJson diagnostics
  have herror : Json.MembersWellSpelled
      (error.toList.map fun error => (some "error", Json.text error)) := by
    cases error with
    | none => trivial
    | some error => exact ⟨trivial, trivial⟩
  cases ratio with
  | none => exact ⟨trivial, trivial, trivial, hdiagnostics, herror⟩
  | some ratio =>
      obtain ⟨literal, hliteral, -, hspelled⟩ := (h ratio rfl).spelled
      have hratio : (ratioJson ratio).WellSpelled := by
        rw [ratioJson, hliteral]
        exact hspelled
      exact ⟨trivial, trivial, trivial, hdiagnostics, hratio, herror⟩

/-- The value of a ratio that is read back, and what stands for one that is not there. -/
theorem orNull_ratio (h : ∀ ratio ∈ r.errorRatio, Json.ReadsBack ratio) :
    Json.orNull (fun j => j.literal?.bind Json.numberValue?)
        ((r.errorRatio.map ratioJson).getD .null)
      = some r.errorRatio := by
  cases hratio : r.errorRatio with
  | none => rfl
  | some ratio =>
      obtain ⟨literal, hliteral, hvalue, -⟩ := (h ratio hratio).spelled
      show Json.orNull _ (ratioJson ratio) = _
      rw [ratioJson, hliteral]
      simp only [Json.orNull, Json.literal?, Option.bind_some, hvalue, Option.map_some]

/-- Each member of a report is found under its name, and one that was left out is `null`. -/
theorem ofJson?_toJson_eq (r : Report) :
    ofJson? r.toJson = ofFields? (.text r.test) (.text r.kind.name) (.bool r.passed)
      (.array (r.diagnostics.map (·.toJson))) ((r.errorRatio.map ratioJson).getD .null)
      ((r.error.map Json.text).getD .null) := by
  obtain ⟨test, kind, passed, diagnostics, ratio, error⟩ := r
  cases ratio <;> cases error <;>
    simp [ofJson?, toJson, Json.required?, Json.optional?, Json.valuesAt]

theorem ofJson?_toJson (h : ∀ ratio ∈ r.errorRatio, Json.ReadsBack ratio) :
    ofJson? r.toJson = some r := by
  have hratio := orNull_ratio h
  have herror : Json.orNull Json.text? ((r.error.map Json.text).getD .null) = some r.error := by
    cases r.error <;> rfl
  rw [ofJson?_toJson_eq, ofFields?]
  simp only [Json.text, Json.text?, Json.word?, Json.bool?, Json.items?, Kind.ofName?_name,
    Diagnostic.mapM_ofJson?, Option.bind_eq_bind, Option.bind_some] at herror ⊢
  rw [hratio, herror]
  rfl

/-- **A report is read back from its text.**  Whatever characters its strings hold and however many
diagnostics it has, reading the text of a report gives that report: every field as it was, the
diagnostics in their order, and no ratio and no error where there was none.  A ratio has to be one
that its spelling gives back. -/
theorem ofText?_toText (h : ∀ ratio ∈ r.errorRatio, Json.ReadsBack ratio) :
    ofText? r.toText = some r := by
  rw [ofText?, toText, Json.parse_toText (wellSpelled_toJson h), Option.bind_some]
  exact ofJson?_toJson h

/-- The sentinel is a ratio that its spelling gives back, here in a report whose strings need every
way of escaping. -/
theorem ofText?_toText_sentinel :
    let r : Report := ⟨"gpu/\"clear\"\\", .screenshot, false,
      [⟨.added, "\x01\x1f\n\t"⟩, ⟨.expected, "ß😀\x7f/"⟩], some Score.sentinel, some ""⟩
    (∀ ratio ∈ r.errorRatio, Json.ReadsBack ratio) ∧ ofText? r.toText = some r := by
  intro r
  have hratio : ∀ ratio ∈ r.errorRatio, Json.ReadsBack ratio := by
    intro ratio hmem
    cases hmem
    decide +kernel
  exact ⟨hratio, ofText?_toText hratio⟩

end Report

end Golden
