import Mathlib.Data.List.TakeWhile
import Golden.Proofs.Line.Remaining
import Golden.Proofs.Text.Newlines

/-!
# Golden.Proofs.Line.Interchange — a stream is the text it brings

A stream arrives in pieces, is decoded line by line, notices its end late and may fail half-way.
None of that shows: a reader over a stream answers every series of requests as a reader over the
decoded text of the bytes that arrive before the first failure (`answers_ofDeliveries`).

The argument has two halves.

* **Both sources deliver the same lines** (`lines_ofDeliveries`).  Reading a line off a stream
  either takes everything that still arrives, which then has no newline in it, or takes the bytes up
  to the first newline and leaves the rest (`Delivery.readLine_cases`).  Decoding commutes with that
  cut because a newline is never part of a longer character.
* **A reader shows its window and the lines behind it, and nothing else.**  Readers that agree in
  both (`Reader.Alike`) answer every request alike and agree again afterwards (`Reader.Alike.ask`),
  whatever becomes of the reader they are compared with.
-/

namespace Golden

/-! ## Cutting a stream at its newlines -/

namespace Delivery

open Text.Utf8 (newline)

/-- The bytes that arrive before the first failure. -/
def arriving : List Delivery → List UInt8
  | [] => []
  | .bytes content :: rest => content ++ arriving rest
  | .interrupted :: rest => arriving rest
  | .failure _ :: _ => []

theorem newline_notMem_of_cutAfterNewline {content : List UInt8}
    (h : cutAfterNewline content = none) : newline ∉ content :=
  List.count_eq_zero.mp (count_of_cutAfterNewline_eq_none h)

theorem eq_append_of_cutAfterNewline :
    ∀ {content line later : List UInt8}, cutAfterNewline content = some (line, later) →
      ∃ front, newline ∉ front ∧ line = front ++ [newline] ∧ content = front ++ newline :: later
  | [], _, _, h => by cases h
  | b :: rest, line, later, h => by
      unfold cutAfterNewline at h
      split at h
      · rename_i hb
        cases h
        exact ⟨[], List.not_mem_nil, by rw [hb]; rfl, by rw [hb]; rfl⟩
      · rename_i hb
        obtain ⟨⟨line', later'⟩, h', hp⟩ := Option.map_eq_some_iff.mp h
        cases hp
        obtain ⟨front, hfront, hline, hrest⟩ := eq_append_of_cutAfterNewline h'
        refine ⟨b :: front, ?_, by rw [hline]; rfl, by rw [hrest]; rfl⟩
        rw [List.mem_cons, not_or]
        exact ⟨Ne.symm hb, hfront⟩

/-- Reading a line takes all that arrives, if there is no newline in it, and otherwise the bytes up
to the first newline, leaving the others. -/
theorem readLine_cases (feed : List Delivery) :
    (newline ∉ arriving feed ∧ (readLine feed).bytes = arriving feed) ∨
      ∃ front, newline ∉ front ∧ (readLine feed).bytes = front ++ [newline] ∧
        (readLine feed).failure = none ∧
        arriving feed = front ++ newline :: arriving (readLine feed).rest := by
  induction feed with
  | nil => exact Or.inl ⟨List.not_mem_nil, rfl⟩
  | cons delivery rest ih =>
      cases delivery with
      | interrupted => exact ih
      | failure cause => exact Or.inl ⟨List.not_mem_nil, rfl⟩
      | bytes content =>
          simp only [readLine, arriving]
          cases hcut : cutAfterNewline content with
          | some cut =>
              obtain ⟨line, later⟩ := cut
              obtain ⟨front, hfront, hline, hcontent⟩ := eq_append_of_cutAfterNewline hcut
              exact Or.inr ⟨front, hfront, hline, rfl, by simp [arriving, hcontent]⟩
          | none =>
              have hcontent := newline_notMem_of_cutAfterNewline hcut
              rcases ih with ⟨hnew, hbytes⟩ | ⟨front, hfront, hbytes, hfailure, harriving⟩
              · refine Or.inl ⟨?_, by rw [hbytes]⟩
                rw [List.mem_append, not_or]
                exact ⟨hcontent, hnew⟩
              · refine Or.inr ⟨content ++ front, ?_, by simp [hbytes], hfailure, ?_⟩
                · rw [List.mem_append, not_or]
                  exact ⟨hcontent, hfront⟩
                · rw [harriving, List.append_assoc]

end Delivery

/-! ## The lines of a text and of a stream -/

theorem trimTerminators_concat_newline (line : List Char) :
    trimTerminators (line ++ ['\n']) = trimTerminators line := by
  simp [trimTerminators]

namespace Source

theorem lines_text_of_notMem {text : List Char} (h : '\n' ∉ text) :
    (Source.text (some text)).lines = [String.ofList (trimTerminators text)] := by
  have hdrop : text.dropWhile (· != '\n') = [] := by
    rw [List.dropWhile_eq_nil_iff]
    intro c hc
    exact bne_iff_ne.mpr fun heq => h (heq ▸ hc)
  rw [lines_of_hasMore rfl]
  simp only [read, hdrop]
  rw [lines_of_ended rfl]

theorem lines_text_append {front : List Char} (rest : List Char) (h : '\n' ∉ front) :
    (Source.text (some (front ++ '\n' :: rest))).lines
      = String.ofList (trimTerminators front) :: (Source.text (some rest)).lines := by
  have hfront : ∀ c ∈ front, (c != '\n') = true := fun c hc =>
    bne_iff_ne.mpr fun heq => h (heq ▸ hc)
  rw [lines_of_hasMore rfl]
  simp [read, List.dropWhile_append_of_pos hfront, List.takeWhile_append_of_pos hfront]

/-- **A stream delivers the lines of the text it brings.** -/
theorem lines_stream (feed : List Delivery) :
    (Source.stream feed false).lines
      = (Source.text (some (Text.Utf8.decodeLossy (Delivery.arriving feed)))).lines := by
  rw [lines_of_hasMore rfl]
  simp only [read, Bool.false_or]
  rcases Delivery.readLine_cases feed with
    ⟨hnew, hbytes⟩ | ⟨front, hfront, hbytes, hfailure, harriving⟩
  · -- a line without its newline ends the stream
    have hshort : ((Delivery.readLine feed).bytes.getLast? != some Text.Utf8.newline) = true := by
      rw [bne_iff_ne]
      intro hlast
      exact hnew (hbytes ▸ List.mem_of_getLast? hlast)
    rw [hshort, lines_text_of_notMem (Text.Utf8.newline_notMem_decodeLossy hnew), hbytes]
    rw [Bool.true_or, lines_of_ended rfl]
  · -- a line with its newline leaves a stream with one newline fewer
    have hfull : (Delivery.readLine feed).bytes.getLast? = some Text.Utf8.newline := by
      rw [hbytes, List.getLast?_concat]
    have hless : Delivery.newlines (Delivery.readLine feed).rest < Delivery.newlines feed :=
      Delivery.newlines_readLine hfull
    have htext : Text.Utf8.decodeLossy (Delivery.arriving feed)
        = Text.Utf8.decodeLossy front
          ++ '\n' :: Text.Utf8.decodeLossy (Delivery.arriving (Delivery.readLine feed).rest) := by
      rw [harriving, Text.Utf8.decodeLossy_append_newline, Text.Utf8.decodeLossy_concat_newline,
        List.append_assoc]
      rfl
    rw [htext, lines_text_append _ (Text.Utf8.newline_notMem_decodeLossy hfront)]
    rw [hfull, hfailure, hbytes, Text.Utf8.decodeLossy_concat_newline,
      trimTerminators_concat_newline]
    simp only [bne_self_eq_false, Option.isSome_none, Bool.or_self]
    rw [lines_stream (Delivery.readLine feed).rest]
termination_by Delivery.newlines feed

theorem lines_ofDeliveries (feed : List Delivery) :
    (ofDeliveries feed).lines = (ofText (textOfBytes (Delivery.arriving feed))).lines := by
  rw [ofDeliveries, lines_stream, ofText, textOfBytes, String.toList_ofList]

end Source

/-! ## Requests to a reader -/

/-- What can be asked of a reader that stands beside another one. -/
inductive Request
  | peek (pos : Nat)
  | skip (count : Nat)
  | consume
  | hasLines
  | buffered
  /-- Whether the next lines of both readers are equal, taking them if they are. -/
  | takeShared
  deriving DecidableEq, Repr

/-- What a request comes back with. -/
inductive Answer
  | line (text : String)
  | flag (value : Bool)
  | count (value : Nat)
  | nothing
  deriving DecidableEq, Repr

/-- Which of the two readers a request goes to. -/
inductive Addressee
  | reader
  | third
  deriving DecidableEq, Repr

namespace Reader

/-- Put a request to a reader beside a third one. -/
def ask (r third : Reader) : Request → Answer × Reader × Reader
  | .peek pos => (.line (r.peek pos).value.1, (r.peek pos).value.2, third)
  | .skip count => (.nothing, (r.skip count).value, third)
  | .consume => (.line r.consume.value.1, r.consume.value.2, third)
  | .hasLines => (.flag r.hasLines, r, third)
  | .buffered => (.count r.buffered, r, third)
  | .takeShared => (.flag (r.takeShared third).value.1.isSome, (r.takeShared third).value.2)

/-- The answers to a series of requests, each to either of the two readers. -/
def answers (r third : Reader) : List (Addressee × Request) → List Answer
  | [] => []
  | (.reader, request) :: rest =>
    let (answer, r, third) := r.ask third request
    answer :: answers r third rest
  | (.third, request) :: rest =>
    let (answer, third, r) := third.ask r request
    answer :: answers r third rest

/-! ### Readers that cannot be told apart -/

/-- Readers with the same lines in view and the same lines behind them. -/
structure Alike (r s : Reader) : Prop where
  window : r.window = s.window
  lines : r.source.lines = s.source.lines

namespace Alike

variable {r s third third' : Reader}

protected theorem refl (r : Reader) : Alike r r := ⟨rfl, rfl⟩

theorem hasLines (h : Alike r s) : r.hasLines = s.hasLines := by
  have hsource : r.source.hasMore = s.source.hasMore := by
    rw [Bool.eq_iff_iff, Source.hasMore_iff, Source.hasMore_iff, h.lines]
  rw [Reader.hasLines, Reader.hasLines, hsource, h.window]

theorem line (h : Alike r s) (pos : Nat) : r.line pos = s.line pos := by
  rw [Reader.line, Reader.line, h.window]

theorem fill (h : Alike r s) : Alike r.fill.value s.fill.value where
  window := by rw [window_fill, window_fill, h.window, h.lines]
  lines := by rw [lines_source_fill, lines_source_fill, h.window, h.lines]

theorem prepare (h : Alike r s) (pos : Nat) : Alike (r.prepare pos).value (s.prepare pos).value := by
  unfold Reader.prepare
  rw [h.window]
  split
  · exact h.fill
  · exact h

theorem skip (h : Alike r s) (count : Nat) : Alike (r.skip count).value (s.skip count).value :=
  fill ⟨by rw [h.window], h.lines⟩

theorem takeShared (h : Alike r s) (hthird : Alike third third') :
    (r.takeShared third).value.1 = (s.takeShared third').value.1 ∧
      Alike (r.takeShared third).value.2.1 (s.takeShared third').value.2.1 ∧
      Alike (r.takeShared third).value.2.2 (s.takeShared third').value.2.2 := by
  have hr := h.prepare 0
  have ht := hthird.prepare 0
  simp only [Reader.takeShared, Traced.value_bind, hr.line 0, ht.line 0]
  split
  · exact ⟨rfl, hr.skip 1, ht.skip 1⟩
  · exact ⟨rfl, hr, ht⟩

/-- **One request**: alike readers answer alike and are alike afterwards. -/
theorem ask (h : Alike r s) (hthird : Alike third third') (request : Request) :
    (r.ask third request).1 = (s.ask third' request).1 ∧
      Alike (r.ask third request).2.1 (s.ask third' request).2.1 ∧
      Alike (r.ask third request).2.2 (s.ask third' request).2.2 := by
  cases request with
  | peek pos => exact ⟨congrArg Answer.line ((h.prepare pos).line pos), h.prepare pos, hthird⟩
  | skip count => exact ⟨rfl, h.skip count, hthird⟩
  | consume => exact ⟨congrArg Answer.line ((h.prepare 0).line 0), (h.prepare 0).skip 1, hthird⟩
  | hasLines => exact ⟨congrArg Answer.flag h.hasLines, h, hthird⟩
  | buffered => exact ⟨congrArg (Answer.count ∘ List.length) h.window, h, hthird⟩
  | takeShared =>
      obtain ⟨hline, hself, hother⟩ := h.takeShared hthird
      exact ⟨congrArg (Answer.flag ∘ Option.isSome) hline, hself, hother⟩

/-- **All requests**, by induction on the series: no request tells alike readers apart. -/
theorem answers (h : Alike r s) (hthird : Alike third third')
    (requests : List (Addressee × Request)) :
    r.answers third requests = s.answers third' requests := by
  induction requests generalizing r s third third' with
  | nil => rfl
  | cons addressed rest ih =>
      obtain ⟨addressee, request⟩ := addressed
      cases addressee with
      | reader =>
          obtain ⟨hanswer, hself, hother⟩ := h.ask hthird request
          simp only [Reader.answers]
          rw [hanswer, ih hself hother]
      | third =>
          obtain ⟨hanswer, hself, hother⟩ := hthird.ask h request
          simp only [Reader.answers]
          rw [hanswer, ih hother hself]

end Alike

/-- A reader over a stream is alike one over the text that the stream brings. -/
theorem alike_ofDeliveries (feed : List Delivery) :
    Alike (ofDeliveries feed) (ofText (textOfBytes (Delivery.arriving feed))) :=
  ⟨rfl, Source.lines_ofDeliveries feed⟩

/-- **Streams and texts are interchangeable.**  However a stream arrives, be it in pieces, with
interruptions or with a failure, a reader over it answers every series of requests as a reader over
the text of the bytes before the first failure, beside any third reader. -/
theorem answers_ofDeliveries (feed : List Delivery) (third : Reader)
    (requests : List (Addressee × Request)) :
    (ofDeliveries feed).answers third requests
      = (ofText (textOfBytes (Delivery.arriving feed))).answers third requests :=
  (alike_ofDeliveries feed).answers (.refl third) requests

/-- A character in two pieces, an interruption, a line break in two pieces and a failure in the
middle of a line. -/
example :
    (ofDeliveries [.bytes [0x61, 0xC3], .interrupted, .bytes [0xA9, 0x0D], .bytes [0x0A, 0x62],
        .failure .endOfData, .bytes [0x63]]).answers (ofText "aé")
      [(.reader, .takeShared), (.third, .hasLines), (.reader, .consume), (.reader, .hasLines)]
      = [.flag true, .flag false, .line "b", .flag false] := by
  decide +kernel

end Reader

end Golden
