import Golden.Proofs.Comparison.Announced
import Golden.Proofs.Text.Encoded

/-!
# Golden.Proofs.Comparison.Printed — what a sink holds in the end

A sink that takes everything (`Sink.willing`) holds in the end what it held before and the texts that
went into it, one behind the other (`Audience.output_hearAll`).  Which texts these are can be said
without going through the comparison again.

* The annotations are those of the one event that a report tells of (`Report.event?`), a line by
  each annotator in turn (`annotationsText`).  A report that passed tells of none.
* A comparison of texts prints its diagnostics and, on request, both texts behind them; one of
  screenshots prints nothing (`Call.printedText`).

**So a report and its call tell what has been written where** (`Verifier.annotations_answer`,
`Verifier.output_answer`).  Where both go to one stream, they stand there in this order, since a
comparison announces before it prints (`Call.join_shown`).
-/

namespace Golden

/-! ## Sinks -/

/-- A sink that takes everything, behind the bytes that it holds already. -/
def Sink.willing (held : List UInt8) : Sink := ⟨held, none, []⟩

/-- A sink that takes everything and holds a text. -/
def Sink.holding (text : String) : Sink := ⟨bytesOfText text, none, []⟩

theorem bytesOfText_append (text more : String) :
    bytesOfText (text ++ more) = bytesOfText text ++ bytesOfText more := by
  rw [bytesOfText, String.toList_append, Text.Utf8.encode, List.flatMap_append]
  rfl

theorem Sink.write_willing (held : List UInt8) (more : String) :
    (willing held).write more = (willing (held ++ bytesOfText more), none) := by
  unfold write
  dsimp only
  split
  · rename_i hempty
    have hnone : bytesOfText more = [] := List.isEmpty_iff.mp hempty
    rw [hnone, List.append_nil]
  · rfl

/-- Several texts go in one behind the other. -/
theorem Sink.writeAll_willing (held : List UInt8) (texts : List String) :
    (willing held).writeAll texts = (willing (held ++ bytesOfText (String.join texts)), none) := by
  induction texts generalizing held with
  | nil => rw [String.join_nil, writeAll, show bytesOfText "" = [] from rfl, List.append_nil]
  | cons text rest ih =>
      rw [writeAll, write_willing]
      dsimp only
      rw [ih, String.join_cons, bytesOfText_append, List.append_assoc]

theorem Sink.write_holding (text more : String) :
    (holding text).write more = (holding (text ++ more), none) := by
  show (willing (bytesOfText text)).write more = _
  rw [write_willing, ← bytesOfText_append]
  rfl

theorem Sink.text_holding (text : String) : (holding text).text = text :=
  textOfBytes_bytesOfText text

/-! ## Annotations -/

/-- The event that a report tells of. -/
def Report.event? (r : Report) : Option Event :=
  if r.passed then none
  else
    match r.kind, r.error with
    | .output, none => some .outputMismatch
    | .output, some _ => some .expectationMissing
    | .screenshot, none => r.errorRatio.map .screenshotMismatch
    | .screenshot, some message => some (.screenshotError message)

/-- The lines of several annotators about several events. -/
def linesOf (annotators : List Annotator) (test : String) (events : List Event) : List String :=
  events.flatMap fun event => annotators.map fun a => a.line test event

/-- What several annotators put about a report. -/
def annotationsText (annotators : List Annotator) (r : Report) : String :=
  String.join (linesOf annotators r.test r.event?.toList)

/-- An event that describes a failed report is the one it tells of. -/
theorem Event.Describes.event?_eq {r : Report} {event : Event} (h : event.Describes r)
    (hfailed : r.passed = false) : r.event? = some event := by
  rw [Report.event?, if_neg (by simp [hfailed])]
  cases event with
  | outputMismatch =>
      obtain ⟨hkind, herror, -⟩ := h
      rw [hkind, herror]
  | expectationMissing =>
      obtain ⟨hkind, herror⟩ := h
      obtain ⟨message, herror⟩ := Option.isSome_iff_exists.mp herror
      rw [hkind, herror]
  | screenshotMismatch ratio =>
      obtain ⟨hkind, herror, hratio⟩ := h
      rw [hkind, herror, hratio]
      rfl
  | screenshotError message =>
      obtain ⟨hkind, herror⟩ := h
      rw [hkind, herror]

/-- **What a comparison announces is what its report tells of.** -/
theorem Comparison.Announces.events_eq_event? {test : String} {kind : Kind} {c : Comparison}
    (h : c.Announces test kind) : c.events = c.report.event?.toList := by
  cases hpassed : c.report.passed with
  | true =>
      rw [h.quiet hpassed, Report.event?, if_pos hpassed]
      rfl
  | false =>
      obtain ⟨event, hevents, hdescribes⟩ := h.told hpassed
      rw [hevents, hdescribes.event?_eq hpassed]
      rfl

/-- A sink that takes everything is given the line of an event. -/
theorem Annotator.annotate_holding (a : Annotator) (text test : String) (event : Event) :
    a.annotate (.holding text) test event = ⟨.holding (text ++ a.line test event), []⟩ := by
  rw [annotate, Sink.write_holding]
  rfl

/-- Several annotators put an event one behind the other. -/
theorem foldl_annotate_holding (annotators : List Annotator) (test : String) (event : Event)
    (text : String) :
    annotators.foldl (fun sink a => (a.annotate sink test event).value) (.holding text)
      = .holding (text ++ String.join (annotators.map fun a => a.line test event)) := by
  induction annotators generalizing text with
  | nil => simp
  | cons a rest ih =>
      rw [List.foldl_cons, Annotator.annotate_holding, ih, List.map_cons, String.join_cons,
        String.append_assoc]

/-! ## Printed texts -/

/-- The text that is printed with a telling. -/
def Telling.printed? : Telling → Option String
  | .print _ texts => some (String.join texts)
  | _ => none

/-- Telling prints what there is to print, one text behind the other. -/
theorem Audience.output_hearAll (annotators : List Annotator) (test : String) (a : Audience)
    (tellings : List Telling) {held : List UInt8} (h : a.output = .willing held) :
    (a.hearAll annotators test tellings).value.output
      = .willing (held ++ bytesOfText (String.join (tellings.filterMap Telling.printed?))) := by
  induction tellings generalizing a held with
  | nil => exact h.trans (congrArg Sink.willing (List.append_nil held).symm)
  | cons telling rest ih =>
      rw [hearAll, Traced.value_bind]
      cases telling with
      | note notice => exact ih _ h
      | announce event => exact ih _ h
      | print channel texts =>
          have hmore : (a.hear annotators test (.print channel texts)).value.output
              = .willing (held ++ bytesOfText (String.join texts)) := by
            rw [hear, print, h, Sink.writeAll_willing]
          rw [ih _ hmore, List.filterMap_cons]
          show Sink.willing (held ++ bytesOfText (String.join texts)
            ++ bytesOfText (String.join _)) = _
          rw [Telling.printed?, String.join_cons, bytesOfText_append, List.append_assoc]

namespace Comparison

/-- Everything a comparison prints. -/
def printed (c : Comparison) : List String := c.tellings.filterMap Telling.printed?

/-- What is only for the log is not printed. -/
theorem filterMap_printed?_notes (notices : List Notice) :
    (notices.map Telling.note).filterMap Telling.printed? = [] := by
  rw [List.filterMap_map]
  exact List.filterMap_eq_nil_iff.mpr fun _ _ => rfl

theorem printed_after (notices : List Notice) (c : Comparison) :
    (after notices c).printed = c.printed := by
  rw [printed, after, List.filterMap_append, filterMap_printed?_notes]
  rfl

theorem printed_screenshotFailed (fs : Files) (test : String) (failure : Failure) :
    (screenshotFailed fs test failure).printed = [] :=
  rfl

theorem printed_ofScore (c : Config) (fs : Files) (test : String) (pixels reference : Array UInt32)
    (v : View) (score : Score) : (ofScore c fs test pixels reference v score).printed = [] := by
  unfold ofScore
  dsimp only
  split
  · rfl
  · exact filterMap_printed?_notes _

/-- **A comparison of screenshots prints nothing.** -/
theorem printed_ofPixels (c : Config) (fs : Files) (test : String) (pixels : Array UInt32)
    (v : View) (p : Path) : ∀ x ∈ ofPixels c fs test pixels v p, x.printed = [] :=
  forall_ofPixels (fun notices x h => (printed_after notices x).trans h)
    (printed_screenshotFailed fs test) (fun words => printed_ofScore c fs test pixels words v) p

theorem printed_ofScreenshot (c : Config) (fs : Files) (test : String) (capture : Capture)
    (v : View) (p : Path) : ∀ x ∈ ofScreenshot c fs test capture v p, x.printed = [] :=
  forall_ofScreenshot (fun notices x h => (printed_after notices x).trans h)
    (printed_screenshotFailed fs test)
    (fun pixels words => printed_ofScore c fs test pixels words v) capture p

end Comparison

/-- What is printed of a call that came to a report: the diagnostics of texts and, on request and if
there is an expectation at all, both texts in full. -/
def Call.printedText (c : Config) (fs : Files) (r : Report) : Call → String
  | .output test expectation text =>
    r.diagnosticsText ++
      if c.verbose && fs.exists? expectation then
        String.join
          (fullTexts r.passed test (fs.readText expectation textOfBytes?).toOption text)
      else ""
  | .screenshot .. | .pixels .. => ""

/-- Among the visible files, what exists can be opened. -/
theorem Files.exists?_eq_isOk_deliveries (fs : Files) (p : Path) :
    fs.exists? p = (fs.deliveries p).isOk := by
  unfold exists? deliveries
  cases fs.resolve p <;> rfl

/-- What is met while aligning is told to the log and to the build servers. -/
theorem filterMap_printed?_telling (met : List LineEvent) :
    (met.map LineEvent.telling).filterMap Telling.printed? = [] := by
  rw [List.filterMap_map]
  apply List.filterMap_eq_nil_iff.mpr
  intro event _
  cases event <;> rfl

/-- The diagnostics are printed and, on request, both texts behind them; an expectation that could
not be opened leaves neither. -/
theorem Comparison.join_printed_ofOpened (verbose : Bool) (fs : Files) (test : String)
    (expectation : Path) (text : String) (opened : Except Cause (List Delivery)) :
    let c := ofOpened verbose fs test expectation text opened
    String.join c.printed
      = c.report.diagnosticsText ++
          if verbose && opened.isOk then
            String.join
              (fullTexts c.report.passed test (fs.readText expectation textOfBytes?).toOption text)
          else "" := by
  intro c
  cases opened with
  | error cause =>
      rw [show Except.isOk (.error cause : Except Cause (List Delivery)) = false from rfl,
        Bool.and_false]
      rfl
  | ok feed =>
      simp only [c, printed, ofOpened, List.filterMap_append, filterMap_printed?_telling]
      cases verbose with
      | false => exact String.join_cons
      | true =>
          show String.join [_, _] = _
          rw [String.join_cons, String.join_cons, String.join_nil, String.append_empty]
          rfl

/-- **What a comparison prints can be told from its report.** -/
theorem Call.join_printed (c : Config) (fs : Files) (call : Call) :
    ∀ x ∈ call.comparison c fs, String.join x.printed = call.printedText c fs x.report := by
  cases call with
  | output test expectation text =>
      rintro _ ⟨⟩
      rw [printedText, fs.exists?_eq_isOk_deliveries]
      exact Comparison.join_printed_ofOpened c.verbose fs test expectation text _
  | screenshot test capture view reference =>
      intro x hx
      rw [Comparison.printed_ofScreenshot c fs test capture view reference x hx, String.join_nil]
      rfl
  | pixels test pixels view reference =>
      intro x hx
      rw [Comparison.printed_ofPixels c fs test pixels view reference x hx, String.join_nil]
      rfl

/-! ## One stream -/

/-- What a telling shows on a stream that takes both annotations and printed texts. -/
def Telling.shown (annotators : List Annotator) (test : String) : Telling → String
  | .note _ => ""
  | .announce event => String.join (annotators.map fun a => a.line test event)
  | .print _ texts => String.join texts

theorem join_shown_of_unprinted (annotators : List Annotator) (test : String)
    {tellings : List Telling} (h : tellings.filterMap Telling.printed? = []) :
    String.join (tellings.map (Telling.shown annotators test))
      = String.join (linesOf annotators test (tellings.filterMap Telling.event?)) := by
  induction tellings with
  | nil => rfl
  | cons telling rest ih =>
      rw [List.map_cons, String.join_cons]
      cases telling with
      | note notice => exact String.empty_append.trans (ih h)
      | announce event =>
          rw [ih h]
          exact String.join_append.symm
      | print channel texts => cases h

theorem join_shown_of_unannounced (annotators : List Annotator) (test : String)
    {tellings : List Telling} (h : tellings.filterMap Telling.event? = []) :
    String.join (tellings.map (Telling.shown annotators test))
      = String.join (tellings.filterMap Telling.printed?) := by
  induction tellings with
  | nil => rfl
  | cons telling rest ih =>
      rw [List.map_cons, String.join_cons]
      cases telling with
      | note notice => exact String.empty_append.trans (ih h)
      | announce event => cases h
      | print channel texts =>
          rw [ih h]
          exact String.join_cons.symm

/-- A comparison announces before it prints. -/
theorem Call.announces_first (c : Config) (fs : Files) (call : Call) :
    ∀ x ∈ call.comparison c fs, ∃ front back, x.tellings = front ++ back ∧
      front.filterMap Telling.printed? = [] ∧ back.filterMap Telling.event? = [] := by
  cases call with
  | output test expectation text =>
      rintro _ ⟨⟩
      show ∃ front back, (Comparison.ofOpened c.verbose fs test expectation text _).tellings = _ ∧ _
      cases fs.deliveries expectation with
      | error cause => exact ⟨_, [], (List.append_nil _).symm, rfl, rfl⟩
      | ok feed =>
          refine ⟨_, ?back, ?split, filterMap_printed?_telling
            (Alignment.run (.ofDeliveries feed) (.ofText text)).events, ?quiet⟩
          case split =>
            unfold Comparison.ofOpened
            dsimp only
            rw [List.append_assoc, List.append_assoc]
          case quiet => cases c.verbose <;> rfl
  | screenshot test capture view reference =>
      intro x hx
      exact ⟨_, [], (List.append_nil _).symm,
        Comparison.printed_ofScreenshot c fs test capture view reference x hx, rfl⟩
  | pixels test pixels view reference =>
      intro x hx
      exact ⟨_, [], (List.append_nil _).symm,
        Comparison.printed_ofPixels c fs test pixels view reference x hx, rfl⟩

/-- **On one stream the annotations stand in front of what is printed.** -/
theorem Call.join_shown (annotators : List Annotator) (c : Config) (fs : Files) (call : Call) :
    ∀ x ∈ call.comparison c fs,
      String.join (x.tellings.map (Telling.shown annotators x.report.test))
        = annotationsText annotators x.report ++ call.printedText c fs x.report := by
  intro x hx
  have hevents := (call.announces_comparison c fs x hx).events_eq_event?
  have hprinted := call.join_printed c fs x hx
  obtain ⟨front, back, htellings, hfront, hback⟩ := call.announces_first c fs x hx
  rw [Comparison.events, htellings, List.filterMap_append, hback, List.append_nil] at hevents
  rw [Comparison.printed, htellings, List.filterMap_append, hfront, List.nil_append] at hprinted
  rw [htellings, List.map_append, String.join_append, join_shown_of_unprinted annotators _ hfront,
    join_shown_of_unannounced annotators _ hback, hevents, hprinted]
  rfl

/-! ## Outcomes -/

namespace Verifier

variable (v : Verifier) (fs : Files) (call : Call)

/-- An answer with a report is that of a comparison. -/
theorem exists_comparison_of_report {v : Verifier} {fs : Files} {call : Call}
    {audience : Audience} {r : Report} (h : (v.answer fs audience call).report = some r) :
    ∃ x ∈ call.comparison v.config fs, x.report = r ∧
      v.answer fs audience call = (v.tell audience x).value := by
  rw [answer_eq, report_tellIfAny] at h
  obtain ⟨x, hx, hreport⟩ := Option.map_eq_some_iff.mp h
  refine ⟨x, hx, hreport, ?_⟩
  rw [answer_eq, hx]
  rfl

/-- An answer without a report leaves everything as it was. -/
theorem answer_of_report_eq_none {v : Verifier} {fs : Files} {call : Call} {audience : Audience}
    (h : (v.answer fs audience call).report = none) :
    v.answer fs audience call = ⟨none, fs, audience⟩ := by
  rw [answer_eq, report_tellIfAny, Option.map_eq_none_iff] at h
  rw [answer_eq, h]
  rfl

variable {r : Report} (h : (v.answer fs .attentive call).report = some r)

include h

/-- **The annotations are the lines of all annotators about the report.** -/
theorem annotations_answer :
    (v.answer fs .attentive call).audience.annotations.text = annotationsText v.annotators r := by
  obtain ⟨x, hx, rfl, -⟩ := exists_comparison_of_report h
  have hannounces := call.announces_comparison v.config fs x hx
  have htold := (v.tells_answer fs .attentive call).annotations
  have hevents : call.events v.config fs = x.report.event?.toList := by
    rw [Call.events, hx, Option.elim_some, hannounces.events_eq_event?]
  rw [hevents] at htold
  dsimp only at htold
  rw [htold, annotationsText, hannounces.test_eq]
  cases x.report.event? with
  | none => rfl
  | some event =>
      show Sink.text (v.annotators.foldl _ (.holding "")) = _
      rw [foldl_annotate_holding, Sink.text_holding]
      simp [linesOf]

/-- **The output is what the call prints of its report.** -/
theorem output_answer :
    (v.answer fs .attentive call).audience.output.text = call.printedText v.config fs r := by
  obtain ⟨x, hx, rfl, htold⟩ := exists_comparison_of_report h
  rw [htold]
  show Sink.text (Audience.hearAll v.annotators _ .attentive _).value.output = _
  have hnone : Audience.attentive.output = .willing [] := rfl
  rw [Audience.output_hearAll _ _ _ _ hnone]
  exact (Sink.text_holding _).trans (call.join_printed v.config fs x hx)

end Verifier

end Golden
