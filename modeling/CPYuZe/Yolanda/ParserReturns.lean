import CPYuZe.Yolanda.Application
import CPYuZe.Yolanda.HeaderSection

/-!
# When the parser comes back

The loop of the parser is left only with a request that is done.  A turn that finds no line end
goes round again, and a store outside an allocation or past the slots for headers goes wrong, so
the call comes back exactly when all that is missing of the request stands in the input and there
is room for it (`Complete`, `comesBack_iff`): behind a request line with two spaces, whose copies
can be terminated, a whole header section.  In the state for a body nothing helps.

A request line with fewer spaces does not get that far.  The parser asserts that it finds them,
and the error response of `http_onMessage` is never sent (`not_rejected`).
-/

namespace Yolanda

/-! ## Coming back -/

/-- The call comes back, either with the request done or with a rest of the input that has no
line end. -/
def ComesBack (s : ParseState) : Prop :=
  ∃ fuel s' ok, parseHttpRequest fuel s = .returned (s', ok) ∧
    (s'.request.currentState = .requestDone ∨
      bufferFindCRLF s'.input = none ∧ s'.input.content <:+ s.input.content)

/-- All that is missing of the request stands in the input, and there is room for it. -/
def Complete (s : ParseState) : Prop :=
  match s.request.currentState with
  | .requestStatus => ∃ line more, s.input.content = line ++ crlf ++ more ∧ ¬ crlf <:+: line ∧
      2 ≤ line.count 32 ∧ CopiesFit s.heap.spare s.heap.next ∧
        ∃ line' rest, EndLine s.request.free more line' rest
  | .requestHeaders => ∃ line rest, EndLine s.request.free s.input.content line rest
  | .requestBody => False
  | .requestDone => True

section ComesBack

variable {s s' : ParseState}

lemma complete_of_headers (hs : s.request.currentState = .requestHeaders) :
    Complete s ↔ ∃ line rest, EndLine s.request.free s.input.content line rest := by
  rw [Complete, hs]

/-- A turn does not complete a request. -/
lemma complete_of_turn (hturn : TurnsTo s s') (h : Complete s') : Complete s := by
  cases turnsTo_step hturn with
  | waits => exact h
  | requestLine line rest _ _ _ hs hfit hc hline hspaces =>
    have hend := (complete_of_headers rfl).1 h
    rw [show _ = rest from content_advance_line hc] at hend
    rw [Complete, hs]
    exact ⟨line, rest, hc, hline, hspaces, hfit, hend⟩
  | header line rest key value hs hslot hc hline hcolon =>
    obtain ⟨line', rest', hend⟩ := (complete_of_headers
      (s := ⟨_, _, s.request.withHeader key value⟩) hs).1 h
    rw [show _ = rest from content_advance_line hc] at hend
    refine (complete_of_headers hs).2 ⟨line', rest', ?_⟩
    rw [hc, ← withHeader_free key value hslot]
    exact (endLine_header_iff hline hcolon).2 hend
  | endLine line rest hs hc hline hcolon =>
    refine (complete_of_headers hs).2 ⟨line, rest, ?_⟩
    rw [hc]
    exact .here hline hcolon

lemma complete_of_returned {fuel : ℕ} (h : Outcome.loop parseTurn fuel s = .returned s') :
    Complete s := by
  obtain ⟨hreach, hdone⟩ := reaches_of_returned h
  clear h
  induction hreach using Relation.ReflTransGen.head_induction_on with
  | refl =>
    rw [Complete, hdone]
    trivial
  | head hturn _ ih => exact complete_of_turn hturn ih

lemma returned_of_done (hs : s.request.currentState = .requestDone) :
    Outcome.loop parseTurn 1 s = .returned s :=
  Outcome.loop_done (parseTurn_done hs) 0

lemma reaches_done_of_endLine {line rest : List UInt8}
    (hs : s.request.currentState = .requestHeaders)
    (h : EndLine s.request.free s.input.content line rest) :
    ∃ s', Relation.ReflTransGen TurnsTo s s' ∧ s'.request.currentState = .requestDone := by
  obtain ⟨s₁, hreach, hs₁, hc⟩ := h.reaches hs
  exact ⟨_, hreach.tail (parseTurn_endLine h.whole h.noColon hs₁ hc), rfl⟩

lemma reaches_done_of_complete (h : Complete s) :
    ∃ s', Relation.ReflTransGen TurnsTo s s' ∧ s'.request.currentState = .requestDone := by
  cases hs : s.request.currentState with
  | requestDone => exact ⟨s, .refl, hs⟩
  | requestBody => simp [Complete, hs] at h
  | requestHeaders =>
    obtain ⟨line, rest, hend⟩ := (complete_of_headers hs).1 h
    exact reaches_done_of_endLine hs hend
  | requestStatus =>
    rw [Complete, hs] at h
    obtain ⟨line, more, hc, hline, hspaces, hfit, line', rest, hend⟩ := h
    obtain ⟨s₁, hturn, hs₁, hmore, hnumber, hlength⟩ :=
      turnsTo_requestLine hs hfit hline hspaces hc
    have hfree : s₁.request.free = s.request.free := by
      rw [HttpRequest.free, HttpRequest.free, hnumber, hlength]
    rw [← hmore, ← hfree] at hend
    obtain ⟨s', hreach, hs'⟩ := reaches_done_of_endLine hs₁ hend
    exact ⟨s', .head hturn hreach, hs'⟩

/-- The parser comes back exactly when all that is missing of the request is there and there is
room for it. -/
theorem comesBack_iff (s : ParseState) : ComesBack s ↔ Complete s := by
  constructor
  · rintro ⟨fuel, s', ok, hparse, -⟩
    obtain ⟨s₁, hloop, -⟩ := Outcome.bind_eq_returned.1 hparse
    exact complete_of_returned hloop
  · intro h
    obtain ⟨s', hreach, hs'⟩ := reaches_done_of_complete h
    obtain ⟨k, hk⟩ := Outcome.loop_of_reaches hreach
    refine ⟨1 + k, s', 1, ?_, .inl hs'⟩
    rw [parseHttpRequest, hk, returned_of_done hs']
    rfl

end ComesBack

/-- An input that ends inside the request line keeps the parser in its loop. -/
theorem not_comesBack_truncated : ¬ ∀ s : ParseState, ComesBack s := by
  intro h
  set s : ParseState := ⟨zeroHeap, received (ascii "GET / HTTP/1.1"), httpRequestNew⟩
  obtain ⟨fuel, s', ok, hparse, -⟩ := h s
  obtain ⟨s₁, hloop, -⟩ := Outcome.bind_eq_returned.1 hparse
  have hnone : bufferFindCRLF s.input = none := by
    rw [bufferFindCRLF, received_content]
    decide
  have hwaits : parseTurn s = .returned (.next s) := parseTurn_waits (by decide) hnone
  rw [Outcome.diverges_of_next hwaits fuel] at hloop
  cases hloop

/-! ## Malformed request lines -/

/-- The text of the source's error response, with the two line ends. -/
def badRequest : List UInt8 := ascii "HTTP/1.1 400 Bad Request\r\n\r\n"

/-- The call comes back, the whole error response has been passed to the socket, the connection
is shut down and no request has been handed over. -/
def Rejected (m : MessageAnswers) (w : World) : Prop :=
  ∃ fuel w', httpOnMessage { m with fuel := fuel } w = .returned w' ∧
    ∃ events, w'.trace = w.trace ++ events ∧ .passed badRequest ∈ events ∧
      (∃ unsent, .shutdownWr unsent ∈ events) ∧ ∀ n q, .request n q ∉ events

/-- A connection whose input starts with a whole line for the request line that has fewer than
two spaces in it. -/
structure MalformedLine (w : World) (line : List UInt8) : Prop where
  request : ∃ q, w.conn.request = some q ∧ q.currentState = .requestStatus
  content : ∃ rest, w.conn.inputBuffer.content = line ++ crlf ++ rest
  whole : ¬ crlf <:+: line
  spaces : line.count 32 < 2

/-- The call never comes back from a malformed line: an assertion aborts the process. -/
lemma MalformedLine.not_returned {w w' : World} {line : List UInt8} (h : MalformedLine w line)
    (m : MessageAnswers) : httpOnMessage m w ≠ .returned w' := by
  obtain ⟨q, hq, hs⟩ := h.request
  obtain ⟨rest, hc⟩ := h.content
  intro hreturned
  rw [httpOnMessage_eq m hq] at hreturned
  obtain ⟨s, hloop, -⟩ := Outcome.bind_eq_returned.1 hreturned
  obtain ⟨e, hbad⟩ : ∃ e, parseTurn ⟨w.heap, w.conn.inputBuffer, q⟩ = .faulted e :=
    parseTurn_badLine hs h.whole h.spaces hc
  exact Outcome.neverReturns_of_faulted hbad _ _ hloop

/-- No malformed request line is rejected. -/
theorem not_rejected (m : MessageAnswers) (w : World) (line : List UInt8)
    (h : MalformedLine w line) : ¬ Rejected m w := by
  rintro ⟨fuel, w', hreturned, -⟩
  exact h.not_returned _ hreturned

/-- A new connection of the server that has received `bytes`. -/
def arrived (bytes : List UInt8) : World :=
  (httpConnection 5 0 0 (fun _ => 0) (fun _ => 0) zeroHeap greeter.server).setInput
    (received bytes)

lemma arrived_malformed {line : List UInt8} (hline : ¬ crlf <:+: line)
    (hspaces : line.count 32 < 2) : MalformedLine (arrived (line ++ crlf)) line where
  request := ⟨httpRequestNew, rfl, rfl⟩
  content := ⟨[], by rw [List.append_nil]; exact received_content _⟩
  whole := hline
  spaces := hspaces

theorem not_rejected_oneSpace :
    ¬ Rejected (idleMessage 0 65536).toMessageAnswers (arrived (ascii "GET /" ++ crlf)) :=
  not_rejected (idleMessage 0 65536).toMessageAnswers (arrived (ascii "GET /" ++ crlf))
    (ascii "GET /") (arrived_malformed (by decide) (by decide))

/-- An empty line where the request line should be aborts the process. -/
theorem not_rejected_emptyLine :
    ¬ ∀ (m : MessageAnswers) (w : World) (line : List UInt8), MalformedLine w line →
      Rejected m w := by
  intro h
  have hmalformed : MalformedLine (arrived ([] ++ crlf)) [] :=
    arrived_malformed (by decide) (by decide)
  obtain ⟨fuel, w', hreturned, -⟩ :=
    h (idleMessage 0 65536).toMessageAnswers _ _ hmalformed
  exact hmalformed.not_returned _ hreturned

end Yolanda
