import CPYuZe.Yolanda.Framing
import CPYuZe.Yolanda.ParserReturns

/-!
# The slots for headers

`http_request_add_header` stores behind the headers that are there, and nothing on the way to it
looks at how many slots there are.  The parser reads one header after the other, so the array is
overrun exactly when more lines with `": "` stand in the input than there are slots left
(`slots_iff`).  On a connection of the server the array has `requestHeadersCapacity` slots, every
request starts with none of them in use, and the number of lines that may follow a request line
is that number, unless the request line goes wrong before them (`headerSlots_iff`).
-/

namespace Yolanda

/-- The headers counted have slots of their own. -/
def WithinSlots (q : HttpRequest) : Prop := q.requestHeadersNumber ≤ q.requestHeaders.length

/-- The next turn is to store a header. -/
def StoresHeader (s : ParseState) : Prop :=
  s.request.currentState = .requestHeaders ∧ ∃ rest, HeaderLines 1 s.input.content rest

/-- The headers counted are in the array, and so is the slot of one that is to be stored. -/
def HeaderInside (s : ParseState) : Prop :=
  WithinSlots s.request ∧
    (StoresHeader s → s.request.requestHeadersNumber < s.request.requestHeaders.length)

/-- The headers counted and those that can be read from the input have slots. -/
def SlotsSuffice (s : ParseState) : Prop :=
  WithinSlots s.request ∧
    match s.request.currentState with
    | .requestStatus => CopiesFit s.heap.spare s.heap.next →
        ∀ line more n rest, s.input.content = line ++ crlf ++ more → ¬ crlf <:+: line →
          2 ≤ line.count 32 → HeaderLines n more rest →
            s.request.requestHeadersNumber + n ≤ s.request.requestHeaders.length
    | .requestHeaders => ∀ n rest, HeaderLines n s.input.content rest →
        s.request.requestHeadersNumber + n ≤ s.request.requestHeaders.length
    | .requestBody | .requestDone => True

/-- Some of the lines in front, and the others behind them. -/
lemma HeaderLines.split {m : ℕ} {rest : List UInt8} (k : ℕ) : ∀ {content : List UInt8},
    HeaderLines (k + m) content rest →
      ∃ middle, HeaderLines k content middle ∧ HeaderLines m middle rest := by
  induction k with
  | zero =>
    intro content h
    rw [Nat.zero_add] at h
    exact ⟨content, .nil content, h⟩
  | succ k ih =>
    intro content h
    rw [Nat.succ_add] at h
    cases h with
    | cons hline hcolon h =>
      obtain ⟨middle, hfront, hback⟩ := ih h
      exact ⟨middle, .cons hline hcolon hfront, hback⟩

section Turns

variable {s s' : ParseState}

lemma slotsSuffice_of_headers (hs : s.request.currentState = .requestHeaders) :
    SlotsSuffice s ↔ ∀ n rest, HeaderLines n s.input.content rest →
      s.request.requestHeadersNumber + n ≤ s.request.requestHeaders.length := by
  rw [SlotsSuffice, hs]
  exact and_iff_right_of_imp fun h => h 0 _ (.nil _)

/-- The array stays as long as it is. -/
lemma turnsTo_length (hturn : TurnsTo s s') :
    s'.request.requestHeaders.length = s.request.requestHeaders.length := by
  cases turnsTo_step hturn with
  | waits => rfl
  | requestLine => rfl
  | header line rest key value => exact withHeader_length key value
  | endLine => rfl

lemma SlotsSuffice.turn (h : SlotsSuffice s) (hturn : TurnsTo s s') : SlotsSuffice s' := by
  cases turnsTo_step hturn with
  | waits => exact h
  | requestLine line rest _ _ _ hs hfit hc hline hspaces =>
    have hahead := h.2
    rw [hs] at hahead
    refine (slotsSuffice_of_headers rfl).2 fun n rest' hlines => ?_
    rw [show _ = rest from content_advance_line hc] at hlines
    exact hahead hfit line rest n rest' hc hline hspaces hlines
  | header line rest key value hs hslot hc hline hcolon =>
    have hahead := (slotsSuffice_of_headers hs).1 h
    refine (slotsSuffice_of_headers (s := ⟨_, _, s.request.withHeader key value⟩) hs).2
      fun n rest' hlines => ?_
    rw [show _ = rest from content_advance_line hc] at hlines
    have hmore := hahead (n + 1) rest' (hc ▸ .cons hline hcolon hlines)
    rw [withHeader_number, withHeader_length]
    omega
  | endLine => exact ⟨h.1, trivial⟩

lemma SlotsSuffice.inside (h : SlotsSuffice s) : HeaderInside s := by
  refine ⟨h.1, ?_⟩
  rintro ⟨hs, rest, hlines⟩
  exact (slotsSuffice_of_headers hs).1 h 1 rest hlines

/-- The parser gets to a header for which there is no slot. -/
lemma exists_not_inside {n : ℕ} {rest : List UInt8}
    (hs : s.request.currentState = .requestHeaders) (hlines : HeaderLines n s.input.content rest)
    (hwithin : WithinSlots s.request)
    (hover : s.request.requestHeaders.length < s.request.requestHeadersNumber + n) :
    ∃ s', Relation.ReflTransGen TurnsTo s s' ∧ ¬ HeaderInside s' := by
  rw [WithinSlots] at hwithin
  obtain ⟨m, rfl⟩ : ∃ m, n = s.request.free + (1 + m) := by
    refine ⟨n - s.request.free - 1, ?_⟩
    rw [HttpRequest.free]
    omega
  obtain ⟨middle, hfront, hback⟩ := hlines.split s.request.free
  obtain ⟨more, hnext, -⟩ := hback.split 1
  obtain ⟨s₁, hreach, hs₁, hc, hnumber, hlength⟩ := reaches_headers hfront hs rfl le_rfl
  refine ⟨s₁, hreach, fun hinside => ?_⟩
  have hslot := hinside.2 ⟨hs₁, more, hc ▸ hnext⟩
  rw [hnumber, hlength, HttpRequest.free] at hslot
  omega

/-- No header is stored past the array exactly when there are slots for all that can be read. -/
lemma slots_iff (s : ParseState) :
    (∀ s', Relation.ReflTransGen TurnsTo s s' → HeaderInside s') ↔ SlotsSuffice s := by
  constructor
  · intro h
    have hwithin := (h s .refl).1
    refine ⟨hwithin, ?_⟩
    cases hs : s.request.currentState with
    | requestStatus =>
      intro hfit line more n rest hc hline hspaces hlines
      obtain ⟨s₁, hturn, hs₁, hmore, hnumber, hlength⟩ :=
        turnsTo_requestLine hs hfit hline hspaces hc
      rw [← hnumber, ← hlength]
      by_contra hover
      obtain ⟨s₂, hreach, hnot⟩ := exists_not_inside hs₁ (hmore ▸ hlines)
        (h s₁ (.single hturn)).1 (not_le.1 hover)
      exact hnot (h s₂ (.head hturn hreach))
    | requestHeaders =>
      intro n rest hlines
      by_contra hover
      obtain ⟨s₁, hreach, hnot⟩ := exists_not_inside hs hlines hwithin (not_le.1 hover)
      exact hnot (h s₁ hreach)
    | requestBody => trivial
    | requestDone => trivial
  · intro h s' hreach
    have hsuffice : SlotsSuffice s' := by
      induction hreach with
      | refl => exact h
      | tail _ hturn ih => exact ih.turn hturn
    exact hsuffice.inside

end Turns

/-! ## Calls on a connection -/

/-- The input on which the parser is run in a call, if it is run. -/
def messageInput (w : World) : ConnectionCall → Option Buffer
  | .handleRead _ r result =>
    match bufferSocketRead r w.conn.inputBuffer result with
    | .returned (input, n) => if n > 0 then some input else none
    | _ => none
  | _ => none

/-- At every turn of the parser the headers of the request are in its array, and so is the slot of
a header that is to be stored. -/
def HeadersStored (w : World) (c : ConnectionCall) : Prop :=
  ∀ input q, messageInput w c = some input → w.conn.request = some q →
    ∀ s, Relation.ReflTransGen TurnsTo ⟨w.heap, input, q⟩ s → HeaderInside s

/-- At most `requestHeadersCapacity` lines with `": "` follow the line in front, if its copies can
be terminated. -/
def FewHeaders (w : World) (c : ConnectionCall) : Prop :=
  ∀ input, messageInput w c = some input → w.conn.request.isSome = true →
    CopiesFit w.heap.spare w.heap.next →
    ∀ line more n rest, input.content = line ++ crlf ++ more → ¬ crlf <:+: line →
      2 ≤ line.count 32 → HeaderLines n more rest → n ≤ requestHeadersCapacity

/-- Between two calls a connection has nothing queued, and no request or one with nothing in
it. -/
structure AtRest (w : World) : Prop where
  unqueued : Unqueued w
  blank : ∀ q, w.conn.request = some q → Blank q

section Calls

variable {w w' : World}

lemma AtRest.of_conn (h : AtRest w) (hconn : w'.conn = w.conn) : AtRest w' where
  unqueued := h.unqueued.of_conn (congrArg _ hconn) (congrArg _ hconn)
  blank := hconn ▸ h.blank

lemma reaches_length {s s' : ParseState} (h : Relation.ReflTransGen TurnsTo s s') :
    s'.request.requestHeaders.length = s.request.requestHeaders.length := by
  induction h with
  | refl => rfl
  | tail _ hturn ih => exact (turnsTo_length hturn).trans ih

/-- A call of `http_onMessage` that comes back leaves the request with nothing in it. -/
lemma onMessage_blank {m : MessageAnswers} (h : AtRest w)
    (hreturned : httpOnMessage m w = .returned w') {q : HttpRequest}
    (hq : w'.conn.request = some q) : Blank q := by
  obtain ⟨q₀, s, w₁, data, closes, hq₀, hloop, -, rfl⟩ :=
    httpOnMessage_cases h.unqueued hreturned
  obtain rfl : httpRequestReset s.request = q := Option.some.inj hq
  have hlength := reaches_length (reaches_of_returned hloop).1
  exact ⟨rfl, rfl, hlength.trans (h.blank q₀ hq₀).capacity⟩

lemma connectionStep_atRest {c : ConnectionCall} (h : AtRest w)
    (hreturned : connectionStep w c = .returned w') : AtRest w' := by
  refine ⟨connectionStep_unqueued h.unqueued hreturned, fun q hq => ?_⟩
  cases c with
  | conn op =>
    rcases h.unqueued.connStep_cases hreturned with ⟨a, -, -, rfl⟩ | ⟨-, ⟨e, rfl⟩ | rfl⟩
    · exact h.blank q hq
    · exact h.blank q hq
    · exact h.blank q hq
  | shutdown =>
    cases hreturned
    exact h.blank q hq
  | handleRead m r result =>
    obtain ⟨input, n, -, ⟨-, hmessage⟩ | rfl⟩ := httpHandleRead_cases hreturned
    · have hinput : AtRest (w.setInput input) := ⟨h.unqueued.of_conn rfl rfl, h.blank⟩
      exact onMessage_blank hinput hmessage hq
    · cases hq

lemma httpConnection_atRest (connectedFd : ℤ) (eventLoop self : ℕ) (fresh₁ fresh₂ : ℕ → UInt8)
    (heap : Heap) (httpServer : HttpServer) :
    AtRest (httpConnection connectedFd eventLoop self fresh₁ fresh₂ heap httpServer) := by
  refine ⟨httpConnection_unqueued connectedFd eventLoop self fresh₁ fresh₂ heap httpServer, ?_⟩
  intro q hq
  cases hq
  exact httpRequestNew_blank

lemma headersStored_iff (h : AtRest w) (c : ConnectionCall) :
    HeadersStored w c ↔ FewHeaders w c := by
  have hone : ∀ input q, Blank q → (SlotsSuffice ⟨w.heap, input, q⟩ ↔
      (CopiesFit w.heap.spare w.heap.next →
        ∀ line more n rest, input.content = line ++ crlf ++ more → ¬ crlf <:+: line →
          2 ≤ line.count 32 → HeaderLines n more rest → n ≤ requestHeadersCapacity)) := by
    intro input q hblank
    simp only [SlotsSuffice, WithinSlots, hblank.currentState, hblank.number, hblank.capacity,
      Nat.zero_le, zero_add, true_and]
  constructor
  · intro hstored input hinput hsome
    obtain ⟨q, hq⟩ := Option.isSome_iff_exists.1 hsome
    exact (hone input q (h.blank q hq)).1 ((slots_iff _).1 (hstored input q hinput hq))
  · intro hfew input q hinput hq
    exact (slots_iff _).2 ((hone input q (h.blank q hq)).2 (hfew input hinput (by simp [hq])))

end Calls

/-- On a connection of the server no header is ever stored past the array exactly when in every
call in which the parser is run at most `requestHeadersCapacity` lines with `": "` follow a
request line whose copies can be terminated. -/
theorem headerSlots_iff (connectedFd : ℤ) (eventLoop self : ℕ) (fresh₁ fresh₂ : ℕ → UInt8)
    (heap : Heap) (httpServer : HttpServer) (calls : List ConnectionCall) :
    Outcome.Throughout connectionStep HeadersStored
        (httpConnection connectedFd eventLoop self fresh₁ fresh₂ heap httpServer) calls ↔
      Outcome.Throughout connectionStep FewHeaders
        (httpConnection connectedFd eventLoop self fresh₁ fresh₂ heap httpServer) calls := by
  apply Outcome.throughout_iff
  · exact fun w c h => headersStored_iff h c
  · exact fun w c w' h _ hstep => connectionStep_atRest h hstep
  · exact httpConnection_atRest connectedFd eventLoop self fresh₁ fresh₂ heap httpServer

/-! ## One header too many -/

/-- A request with `n` headers. -/
def manyHeaders (n : ℕ) : RequestText where
  method := ascii "GET"
  url := ascii "/"
  version := ascii "HTTP/1.1"
  headers := List.replicate n (ascii "a", ascii "b")

lemma manyHeaders_lines (n : ℕ) :
    HeaderLines n (encodeHeaders (manyHeaders n).headers) crlf := by
  induction n with
  | zero => exact .nil crlf
  | succ n ih =>
    have hcons : encodeHeaders (manyHeaders (n + 1)).headers =
        headerText (ascii "a", ascii "b") ++ crlf ++ encodeHeaders (manyHeaders n).headers :=
      encodeHeaders_cons _ _
    rw [hcons]
    exact .cons (by decide) (by decide) ih

/-- A read event that brings `bytes`. -/
def readEvent (bytes : List UInt8) : ConnectionCall :=
  .handleRead (idleMessage 0 65536).toMessageAnswers (idleAnswers 65536).realloc (.ok bytes)

lemma messageInput_readEvent {w : World} {bytes : List UInt8} (hwf : w.conn.inputBuffer.Wf)
    (hcan : CanRead (idleAnswers 65536).realloc w.conn.inputBuffer bytes) (hbytes : bytes ≠ []) :
    ∃ input, messageInput w (readEvent bytes) = some input ∧
      input.content = w.conn.inputBuffer.content ++ bytes := by
  obtain ⟨input, hread, happ⟩ := bufferSocketRead_returns hwf hcan
  have hpos : (bytes.length : ℤ) > 0 := by
    have := List.length_pos_iff.2 hbytes
    omega
  refine ⟨input, ?_, happ.content_eq⟩
  simp only [messageInput, readEvent, hread, if_pos hpos]

/-- A request with 385 headers overruns the array. -/
theorem not_headersStored_manyHeaders :
    ¬ ∀ (connectedFd : ℤ) (eventLoop self : ℕ) (fresh₁ fresh₂ : ℕ → UInt8) (heap : Heap)
      (httpServer : HttpServer) (calls : List ConnectionCall),
      Outcome.Throughout connectionStep HeadersStored
        (httpConnection connectedFd eventLoop self fresh₁ fresh₂ heap httpServer) calls := by
  intro h
  set w := httpConnection 5 0 0 (fun _ => 0) (fun _ => 0) zeroHeap greeter.server with hw
  set r := manyHeaders 385 with hr
  have hsmall : r.encode.length ≤ initBufferSize := by decide +kernel
  have hcan : CanRead (idleAnswers 65536).realloc w.conn.inputBuffer r.encode :=
    fun hneeds => absurd hneeds (bufferNew_not_needsGrowth _ hsmall)
  obtain ⟨input, hinput, hcontent⟩ :=
    messageInput_readEvent (w := w) (bufferNew_wf _) hcan (encode_ne_nil r)
  have hempty : w.conn.inputBuffer.content = [] := bufferNew_content _
  rw [hempty, List.nil_append, RequestText.encode] at hcontent
  have hrest := httpConnection_atRest 5 0 0 (fun _ => 0) (fun _ => 0) zeroHeap greeter.server
  have hstored := (h 5 0 0 (fun _ => 0) (fun _ => 0) zeroHeap greeter.server
    [readEvent r.encode]).1
  have hfits : CopiesFit w.heap.spare w.heap.next :=
    ⟨Nat.succ_pos 7, Nat.succ_pos 7, Nat.succ_pos 7⟩
  have hover := (headersStored_iff hrest _).1 hstored input hinput rfl hfits r.line _ 385 crlf
    hcontent (by decide) (by decide) (manyHeaders_lines 385)
  exact absurd hover (by decide)

end Yolanda
