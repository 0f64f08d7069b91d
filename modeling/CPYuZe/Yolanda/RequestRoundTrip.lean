import CPYuZe.Yolanda.Framing
import CPYuZe.Yolanda.ParserTurns

/-!
# Requests there and back

The text of a request is parsed to that request (`Reparsed`) exactly when the three allocations
of its request line are larger than was asked for and happen to hold a zero behind the string
copied to them, and there are slots for its headers (`reparsed_iff`).
-/

namespace Yolanda

/-- No carriage return, no line feed and no zero. -/
def Printable (bytes : List UInt8) : Prop := ∀ b ∈ bytes, b ≠ 13 ∧ b ≠ 10 ∧ b ≠ 0

instance (bytes : List UInt8) : Decidable (Printable bytes) :=
  List.decidableBAll _ bytes

/-- Strings that can stand in the text of a request. -/
structure RequestText.Plain (r : RequestText) : Prop where
  method : Printable r.method ∧ (32 : UInt8) ∉ r.method
  url : Printable r.url ∧ (32 : UInt8) ∉ r.url
  version : Printable r.version
  key : ∀ t ∈ r.headers, Printable t.1 ∧ ¬ colonSpace <:+: t.1
  value : ∀ t ∈ r.headers, Printable t.2

section Printable

variable {xs ys : List UInt8}

lemma printable_append : Printable (xs ++ ys) ↔ Printable xs ∧ Printable ys :=
  List.forall_mem_append

lemma Printable.zero_notMem (h : Printable xs) : (0 : UInt8) ∉ xs := fun hmem => (h 0 hmem).2.2 rfl

lemma Printable.no_crlf (h : Printable xs) : ¬ crlf <:+: xs := by
  intro hin
  exact (h 13 (hin.subset (by simp [crlf]))).1 rfl

lemma RequestText.Plain.wellFormed {r : RequestText} (h : r.Plain) : r.WellFormed := by
  have hspace : Printable space := by decide
  have hcolon : Printable colonSpace := by decide
  have hline : Printable r.line :=
    printable_append.2 ⟨printable_append.2 ⟨h.method.1, hspace⟩,
      printable_append.2 ⟨printable_append.2 ⟨h.url.1, hspace⟩, h.version⟩⟩
  have hheader : ∀ t ∈ r.headers, Printable (headerText t) := fun t ht =>
    printable_append.2 ⟨printable_append.2 ⟨(h.key t ht).1, hcolon⟩, h.value t ht⟩
  exact
    { method := h.method.2
      url := h.url.2
      line := hline.no_crlf
      line_ne_zero := hline.zero_notMem
      key := fun t ht => (h.key t ht).2
      header := fun t ht => (hheader t ht).no_crlf
      header_ne_zero := fun t ht => (hheader t ht).zero_notMem }

end Printable

/-! ## Parsing undoes encoding -/

/-- The parser comes back with the request done, with the strings that were encoded and with the
input behind the encoding. -/
def Reparsed (s : ParseState) (r : RequestText) : Prop :=
  ∃ fuel s', parseHttpRequest fuel s = .returned (s', 1) ∧
    s'.request.currentState = .requestDone ∧ Represents s'.request r ∧
      s'.input.readIndex = s.input.readIndex + r.encode.length

section Reparsed

variable {s : ParseState} {r : RequestText} {rest : List UInt8}

lemma reparsed_iff_represents (hr : r.WellFormed) (hwf : s.input.Wf) (hq : Blank s.request)
    (hc : s.input.content = r.encode ++ rest) :
    Reparsed s r ↔ RoomFor s r ∧ Represents (parsedRequest s.heap s.request r) r := by
  have hat : AtRequest s r rest := ⟨hwf, hq.currentState, hr, hc⟩
  constructor
  · rintro ⟨fuel, s', hparse, -, hrep, -⟩
    obtain ⟨s₁, hloop, hdone⟩ := Outcome.bind_eq_returned.1 hparse
    cases hdone
    by_cases hroom : RoomFor s r
    · rw [loop_encode hat hroom] at hloop
      split_ifs at hloop
      cases hloop
      exact ⟨hroom, hrep⟩
    · have hwithin : s.request.requestHeadersNumber ≤ s.request.requestHeaders.length := by
        rw [hq.number]
        exact Nat.zero_le _
      exact absurd hloop (encode_neverReturns hat hwithin hroom _ _)
  · rintro ⟨hroom, hrep⟩
    refine ⟨r.headers.length + 3, requestParsed s r, ?_, parsedRequest_state _ _ _, hrep, rfl⟩
    rw [parseHttpRequest, loop_encode hat hroom, if_pos le_rfl]
    rfl

end Reparsed

/-- A request is parsed to what was encoded exactly when in each allocation the strings of its
request line are copied to the byte behind the string is zero and the terminator past it is inside
the allocation, and it has no more headers than there are slots. -/
theorem reparsed_iff (s : ParseState) (r : RequestText) (rest : List UInt8) (hr : r.Plain)
    (hwf : s.input.Wf) (hq : Blank s.request) (hc : s.input.content = r.encode ++ rest) :
    Reparsed s r ↔ Terminated s.heap.fresh s.heap.next r ∧
      CopiesFit s.heap.spare s.heap.next ∧ r.headers.length ≤ requestHeadersCapacity := by
  have hroom : RoomFor s r ↔ CopiesFit s.heap.spare s.heap.next ∧
      r.headers.length ≤ requestHeadersCapacity := hq.roomFor_iff
  rw [reparsed_iff_represents hr.wellFormed hwf hq hc, hroom]
  constructor
  · rintro ⟨hfit, hrep⟩
    exact ⟨(represents_iff hr.wellFormed hq hfit.2).1 hrep, hfit⟩
  · rintro ⟨hterm, hfit⟩
    exact ⟨hfit, (represents_iff hr.wellFormed hq hfit.2).2 hterm⟩

/-! ## Two heaps -/

def getHost : RequestText where
  method := ascii "GET"
  url := ascii "/"
  version := ascii "HTTP/1.1"
  headers := [(ascii "Host", ascii "x")]

lemma getHost_plain : getHost.Plain where
  method := by decide
  url := by decide
  version := by decide
  key := by decide
  value := by decide

/-- A new request, and an input with the text of `getHost` on a heap full of one byte. -/
def requestOn (b : UInt8) : ParseState :=
  ⟨⟨fun _ _ => b, fun _ => 8, 0⟩, received getHost.encode, httpRequestNew⟩

lemma requestOn_content (b : UInt8) : (requestOn b).input.content = getHost.encode ++ [] :=
  (received_content _).trans (List.append_nil _).symm

theorem reparsed_iff_zeroes : Reparsed (requestOn 0) getHost := by
  refine (reparsed_iff (requestOn 0) getHost [] getHost_plain (received_wf (by decide))
    httpRequestNew_blank (requestOn_content 0)).2 ⟨⟨rfl, rfl, rfl⟩, by decide, by decide⟩

/-- On a heap with other bytes in it the copy of the method is not terminated. -/
theorem not_reparsed_letters :
    ¬ ∀ (s : ParseState) (r : RequestText) (rest : List UInt8), r.Plain → s.input.Wf →
      Blank s.request → s.input.content = r.encode ++ rest → Reparsed s r := by
  intro h
  have hwf : (requestOn 65).input.Wf := received_wf (by decide)
  have hreparsed := h (requestOn 65) getHost [] getHost_plain hwf httpRequestNew_blank
    (requestOn_content 65)
  obtain ⟨hroom, hrep⟩ := (reparsed_iff_represents getHost_plain.wellFormed hwf
    httpRequestNew_blank (requestOn_content 65)).1 hreparsed
  have hterm := (represents_iff getHost_plain.wellFormed httpRequestNew_blank (by decide)).1 hrep
  exact absurd hterm.1 (by decide)

end Yolanda
