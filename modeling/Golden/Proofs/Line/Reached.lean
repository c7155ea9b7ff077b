import Golden.Proofs.Line.Interchange
import Golden.Proofs.Line.Steps
import Golden.Proofs.Line.Verdict

/-!
# Golden.Proofs.Line.Reached — only what differs matters

Readers come about in two ways: fresh from a source, and by a request to a reader that has come
about before, which may take lines from a third one standing beside it (`Reader.Reached`).  However
many requests there have been, a reached reader is regular (`Reached.regular`), so a comparison of
two of them records what stands between the lines that are left.

That makes its outcome independent of two things at once.  It does not depend on how the readers
came about: a fresh one and one with a filled window answer `hasLines` differently, and take
different ways through the two loops over blank lines, but what they record is the same.  And it
does not depend on where the difference stands: lines in front that both sides share are passed over
in silence, blank ones among them, however many there are (`recordedBetween_append`).  **The
diagnostics, the verdict and whether a mismatch is announced are the same for any two pairs of
readers whose lines differ only in what they share in front** (`Alignment.run_regardless`).
-/

namespace Golden

namespace Reader

/-- Any series of requests, to fresh readers and to what earlier requests have made of them, leads
to a reader like this. -/
inductive Reached : Reader → Prop
  | fresh (source : Source) : Reached (ofSource source)
  /-- The reader a request was put to. -/
  | asked {r third : Reader} (request : Request) (hr : Reached r) (hthird : Reached third) :
      Reached (r.ask third request).2.1
  /-- The reader beside it. -/
  | beside {r third : Reader} (request : Request) (hr : Reached r) (hthird : Reached third) :
      Reached (r.ask third request).2.2

/-- **One request** to a regular reader beside a regular one leaves both regular. -/
theorem Regular.ask {r third : Reader} (h : r.Regular) (hthird : third.Regular)
    (request : Request) :
    (r.ask third request).2.1.Regular ∧ (r.ask third request).2.2.Regular := by
  cases request with
  | peek pos => exact ⟨(h.prepare pos).regular, hthird⟩
  | skip count => exact ⟨(h.skip count).regular, hthird⟩
  | consume => exact ⟨h.consume.regular, hthird⟩
  | hasLines | buffered => exact ⟨h, hthird⟩
  | takeShared =>
      have hshared := h.takeShared hthird
      exact ⟨hshared.1.regular, hshared.2.regular⟩

/-- **All requests**, by induction on how the reader came about. -/
theorem Reached.regular {r : Reader} (h : r.Reached) : r.Regular := by
  induction h with
  | fresh source => exact regular_ofSource source
  | asked request _ _ ihr ihthird => exact (ihr.ask ihthird request).1
  | beside request _ _ ihr ihthird => exact (ihr.ask ihthird request).2

end Reader

namespace Alignment

/-- **Neither how readers came about nor what they share in front matters.**  Take two pairs of
reached readers, of which the second have left what the first have left, with the same lines in
front on both sides.  Comparing either pair records the same diagnostics, comes to the same verdict,
and announces as many mismatches. -/
theorem run_regardless {shared : List String} {expected actual expected' actual' : Reader}
    (he : expected.Reached) (ha : actual.Reached) (he' : expected'.Reached) (ha' : actual'.Reached)
    (hexpected : expected'.remaining = shared ++ expected.remaining)
    (hactual : actual'.remaining = shared ++ actual.remaining) :
    (run expected' actual').value.diagnostics = (run expected actual).value.diagnostics ∧
      (run expected' actual').value.isMatch = (run expected actual).value.isMatch ∧
      (run expected' actual').events.count .firstMismatch
        = (run expected actual).events.count .firstMismatch := by
  have hdiagnostics : (run expected' actual').value.diagnostics
      = (run expected actual).value.diagnostics := by
    rw [diagnostics_run_eq he'.regular ha'.regular, diagnostics_run_eq he.regular ha.regular,
      hexpected, hactual, recordedBetween_append]
  -- verdict and announcement are read off the diagnostics
  have hmatch : (run expected' actual').value.isMatch = (run expected actual).value.isMatch := by
    rw [Bool.eq_iff_iff, isMatch_iff_diagnostics, isMatch_iff_diagnostics, hdiagnostics]
  refine ⟨hdiagnostics, hmatch, ?_⟩
  rw [count_firstMismatch_run, count_firstMismatch_run, hmatch]

/-- Seven blank lines in front, more than fit in a window, make no difference; nor does a line that
has been taken before, or one that has been looked at. -/
theorem run_regardless_sevenBlanks :
    let shared := List.replicate 7 ""
    let feed := [Delivery.bytes (List.replicate 4 0x0A), .interrupted,
      .bytes (List.replicate 3 0x0A), .bytes [0x63]]
    let expected := (Reader.ofText "a\nb\nc").consume.value.2
    let actual := Reader.ofText "c"
    let expected' := Reader.ofText "\n\n\n\n\n\n\nb\nc"
    let actual' := ((Reader.ofDeliveries feed).peek 2).value.2
    expected.Reached ∧ actual.Reached ∧ expected'.Reached ∧ actual'.Reached ∧
      expected'.remaining = shared ++ expected.remaining ∧
      actual'.remaining = shared ++ actual.remaining ∧
      (run expected' actual').value.diagnostics = [⟨.removed, "b"⟩] ∧
      (run expected' actual').value.isMatch = false ∧
      (run expected' actual').events.count .firstMismatch = 1 := by
  intro shared feed expected actual expected' actual'
  have hactual : actual.Reached := .fresh _
  have he : expected.Reached := .asked .consume (.fresh (.ofText "a\nb\nc")) hactual
  have hexpected' : expected'.Reached := .fresh _
  have ha' : actual'.Reached := .asked (.peek 2) (.fresh (.ofDeliveries feed)) hactual
  have hexpectedLines : expected'.remaining = shared ++ expected.remaining := by decide +kernel
  have hactualLines : actual'.remaining = shared ++ actual.remaining := by decide +kernel
  obtain ⟨hdiagnostics, hmatch, hcount⟩ :=
    run_regardless he hactual hexpected' ha' hexpectedLines hactualLines
  rw [hdiagnostics, hmatch, hcount]
  exact ⟨he, hactual, hexpected', ha', hexpectedLines, hactualLines, by decide +kernel,
    by decide +kernel, by decide +kernel⟩

end Alignment

end Golden
