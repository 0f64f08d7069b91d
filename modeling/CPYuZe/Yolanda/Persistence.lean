import CPYuZe.Yolanda.HeaderLookup
import CPYuZe.Yolanda.ResponseText

/-!
# Whether the connection stays open

Two functions decide whether a connection stays open behind a response.  The encoding of the
response asks `keep_connected` and announces `close` if it is set, and `http_onMessage` asks the
request and shuts the connection down if that says so.  The first has the two cases the wrong way
round: it announces `Keep-Alive`, with a length, if the flag is not set.

So what is announced is never right for a connection that stays open, and it is right for one that
is shut down exactly if `keep_connected` is set (`persistence_iff`).  The response has to get out
first: its strings have to fit into the buffer, and the socket has to take all of it at once.
-/

namespace Yolanda

/-- What stands in front of the header for the connection. -/
def headBytes (resp : HttpResponse) : List UInt8 :=
  stringBytes (some (statusLine resp)) ++ stringBytes resp.statusMessage ++ crlf

def SaysClose (resp : HttpResponse) (bytes : List UInt8) : Prop :=
  headBytes resp ++ (connectionClose ++ crlf) <+: bytes

def SaysLength (resp : HttpResponse) (bytes : List UInt8) (n : ℕ) : Prop :=
  headBytes resp ++ (contentLengthKey ++ decimal n ++ crlf) <+: bytes

/-- A length is announced, and that the connection stays open. -/
def SaysKeepAlive (resp : HttpResponse) (bytes : List UInt8) : Prop :=
  ∃ n, headBytes resp ++
    (contentLengthKey ++ decimal n ++ crlf ++ (connectionKeepAlive ++ crlf)) <+: bytes

def ShutsDown (events : List Event) : Prop := ∃ unsent, .shutdownWr unsent ∈ events

/-- The response is sent, and what it announces is what happens: `close` exactly if the connection
is shut down behind it, and `Keep-Alive` exactly if `keep_connected` is set and the connection
stays open.  Either the connection ends behind the body or the length of the body is announced. -/
def PersistenceAgrees (m : MessageAnswers) (w : World) (q : HttpRequest) (resp : HttpResponse) :
    Prop :=
  ∃ w' later, httpOnMessage m w = .returned w' ∧
    w'.trace = w.trace ++ .request w.heap.next q :: .passed (responseBytes resp) :: later ∧
    (SaysClose resp (responseBytes resp) ↔ ShutsDown later) ∧
    (SaysKeepAlive resp (responseBytes resp) ↔ resp.keepConnected = true ∧ ¬ ShutsDown later) ∧
    (ShutsDown later ∨ SaysLength resp (responseBytes resp) (stringBytes resp.body).length)

/-- The request has the connection closed: the first header whose name begins with `Connection`
begins with `close`, or the version begins with `HTTP/1.0` and that header differs from
`Keep-Alive` by one. -/
def AsksToClose (d : ByteDiff) (version : List UInt8) (last : UInt8) (hs : List RequestHeader) :
    Prop :=
  ∃ h, FirstWith (fun h => connectionKey <+: h.name) hs h ∧
    (close <+: h.text ∨
      LooksLikeHttp10 version last ∧ DiffersBy d 1 h.value.bytes keepAlive)

/-- The response gets out whole: nothing is missing in it, its strings fit into a new buffer, and
the socket takes all of it. -/
structure GetsOut (k : Answers) (resp : HttpResponse) : Prop where
  encodable : Encodable resp
  fits : SizesFit ⟨0, initBufferSize, initBufferSize⟩ (responseSizes resp)
  taken : ∃ n, k.write = .wrote n ∧ (responseBytes resp).length ≤ n

/-! ## What is announced -/

section Announced

variable {resp : HttpResponse}

lemma responseBytes_head (resp : HttpResponse) :
    responseBytes resp = headBytes resp ++
      (connectionBytes resp ++ (encodeHeaders resp.text.headers ++ resp.text.body)) := by
  rw [responseBytes_eq, headBytes, stringBytes_statusLine, ResponseText.encode, statusText]
  simp only [HttpResponse.text, HttpResponse.textBy, List.append_assoc]

lemma says_of_keep (hkeep : resp.keepConnected = true) :
    SaysClose resp (responseBytes resp) ∧ ¬ SaysKeepAlive resp (responseBytes resp) := by
  rw [SaysClose, SaysKeepAlive, responseBytes_head, connectionBytes_keep hkeep]
  refine ⟨?_, ?_⟩
  · rw [List.prefix_append_right_inj]
    exact List.prefix_append _ _
  · rintro ⟨n, hpre⟩
    rw [List.prefix_append_right_inj] at hpre
    -- the two lines differ at their fourth byte
    have hfour := congrArg (List.take 4) (List.prefix_iff_eq_take.1 hpre)
    simp [contentLengthKey, connectionClose, ascii] at hfour

lemma says_of_not_keep (hkeep : ¬ resp.keepConnected = true) {body : List UInt8}
    (hbody : resp.body = some body) (hshort : (cstr body).length < 10 ^ 13) :
    SaysKeepAlive resp (responseBytes resp) := by
  rw [SaysKeepAlive, responseBytes_head, connectionBytes_length hkeep hbody hshort]
  refine ⟨(cstr body).length, ?_⟩
  rw [List.prefix_append_right_inj]
  exact List.prefix_append _ _

/-- The body of a response whose strings fit is not too long for its length to be announced. -/
lemma body_lt_of_sizesFit {body : List UInt8} (hbody : resp.body = some body)
    (hfits : SizesFit ⟨0, initBufferSize, initBufferSize⟩ (responseSizes resp)) :
    (cstr body).length < 10 ^ 13 := by
  have hmem : resp.body ∈ responseStrings resp := by simp [responseStrings]
  have hlt := hfits.lt (by decide) (by decide) _ (List.mem_map_of_mem hmem)
  rw [hbody] at hlt
  exact lt_trans hlt (by norm_num)

end Announced

/-! ## What happens -/

section Happens

variable {m : ServedMessage} {w w' : World} {q : HttpRequest}
  {callback : HttpRequest → HttpResponse → HttpResponse}

lemma Stored.asksToClose_iff {d : ByteDiff} {version : List UInt8} {last : UInt8}
    {hs : List RequestHeader} (h : Stored q version last hs) :
    httpRequestCloseConnection d q = .returned true ↔ AsksToClose d version last hs := by
  cases hfound : hs.find? fun h => decide (connectionKey <+: h.name) with
  | none =>
    have hnone : ∀ header ∈ hs, ¬ connectionKey <+: header.name := by
      simpa using List.find?_eq_none.1 hfound
    rw [h.closeConnection_none hnone]
    refine iff_of_false (by split_ifs <;> simp) ?_
    rintro ⟨header, hfirst, -⟩
    exact hnone header hfirst.mem.1 hfirst.mem.2
  | some header =>
    have hfirst := firstWith_iff_find.2 hfound
    rw [h.closeConnection_some hfirst]
    constructor
    · exact fun hiff => ⟨header, hfirst, hiff.1 rfl⟩
    · rintro ⟨header', hfirst', hcloses⟩
      rw [hfirst.eq hfirst']
      exact iff_of_true rfl hcloses

/-- What a call that comes back has left behind: the response as far as its strings can be
appended, taken by the socket, and a shutdown if the request has the connection closed. -/
lemma respond_trace_cases {n : ℕ} (hw : Unqueued w) (hdone : q.currentState = .requestDone)
    (hdata : w.conn.data = some ⟨some callback⟩)
    (h : respond m.toMessageAnswers n q w = .returned w') :
    let resp := callback q httpResponseNew
    let bytes := (responseStrings resp).flatMap cutBytes
    Encodable resp ∧ StringsFit ⟨0, initBufferSize, initBufferSize⟩ (responseStrings resp) ∧
      (∃ k, m.answers.write = .wrote k ∧ bytes.length ≤ k) ∧
      ∃ closes, httpRequestCloseConnection m.byteDiff q = .returned closes ∧
        w' = answered ((w.emit (.request n q)).sent bytes) q closes := by
  intro resp bytes
  obtain ⟨hencodable, hfit⟩ : Encodable resp ∧
      StringsFit ⟨0, initBufferSize, initBufferSize⟩ (responseStrings resp) := by
    have hunfold := h
    unfold respond at hunfold
    rw [if_pos hdone, hdata] at hunfold
    obtain ⟨b, hb, -⟩ := Outcome.bind_eq_returned.1 hunfold
    exact (encodeBuffer_returned_iff m.encode_served (bufferNew_wf m.fresh)
      (bufferNew_total_lt m.fresh)).1 ⟨b, hb⟩
  obtain ⟨a, hbytes, hk, hrespond⟩ := respond_callback_eq m n hdone hdata hencodable hfit
  have hrequest : Unqueued (w.emit (.request n q)) := hw.of_conn rfl rfl
  rw [hrespond] at h
  obtain ⟨w₁, hsend, hrest⟩ := Outcome.bind_eq_returned.1 h
  obtain ⟨⟨k, hwrote, hle⟩, rfl⟩ := hrequest.run_returned_iff.1 hsend
  obtain ⟨closes, hcloses, hlast⟩ := Outcome.bind_eq_returned.1 hrest
  rw [hbytes] at hle hlast
  rw [hk] at hwrote
  exact ⟨hencodable, hfit, ⟨k, hwrote, hle⟩, closes, hcloses, (Outcome.returned.inj hlast).symm⟩

/-- A response that gets out is sent. -/
lemma respond_trace {n : ℕ} (hw : Unqueued w) (hdone : q.currentState = .requestDone)
    (hdata : w.conn.data = some ⟨some callback⟩)
    (hout : GetsOut m.answers (callback q httpResponseNew)) {closes : Bool}
    (hcloses : httpRequestCloseConnection m.byteDiff q = .returned closes) :
    respond m.toMessageAnswers n q w = .returned
      (answered ((w.emit (.request n q)).sent (responseBytes (callback q httpResponseNew)))
        q closes) := by
  obtain ⟨hfit, hwhole⟩ := stringsFit_of_sizesFit (z := ⟨0, initBufferSize, initBufferSize⟩)
    (Nat.zero_add _).le (bufferNew_total_lt m.fresh) hout.fits
  obtain ⟨a, hbytes, hk, hrespond⟩ := respond_callback_eq m n hdone hdata hout.encodable hfit
  have hrequest : Unqueued (w.emit (.request n q)) := hw.of_conn rfl rfl
  have hsame : a.data.bytes = responseBytes (callback q httpResponseNew) := hbytes.trans hwhole
  have htaken : a.TakenWhole := by
    rw [SendArgs.TakenWhole, hsame, hk]
    exact hout.taken
  rw [hrespond, hrequest.run_returned_iff.2 ⟨htaken, rfl⟩, Outcome.returned_bind, hcloses, hsame]
  rfl

/-- The connection is shut down if the request has it closed. -/
lemma answered_sent_trace (w : World) (data : List UInt8) (q : HttpRequest) (closes : Bool) :
    ∃ later, (answered (w.sent data) q closes).trace = w.trace ++ .passed data :: later ∧
      (ShutsDown later ↔ closes = true) := by
  cases closes with
  | true =>
    refine ⟨[.accepted data, .shutdownWr (w.sent data).unsent], ?_, by simp [ShutsDown]⟩
    show (w.sent data).trace ++ [.shutdownWr (w.sent data).unsent] = _
    rw [World.sent_trace, List.append_assoc, List.append_assoc]
    rfl
  | false =>
    refine ⟨[.accepted data], ?_, by simp [ShutsDown]⟩
    show (w.sent data).trace = _
    rw [World.sent_trace, List.append_assoc]
    rfl

end Happens

section Agreement

variable (m : ServedMessage) {w : World} {q₀ : HttpRequest} {s : ParseState}
  {callback : HttpRequest → HttpResponse → HttpResponse}

/-- By what decides about the shutdown. -/
lemma persistenceAgrees_iff_closes (hq : w.conn.request = some q₀)
    (hparse : Outcome.loop parseTurn m.fuel ⟨w.heap, w.conn.inputBuffer, q₀⟩ = .returned s)
    (hdata : w.conn.data = some ⟨some callback⟩) (hw : Unqueued w) :
    PersistenceAgrees m.toMessageAnswers w s.request (callback s.request httpResponseNew) ↔
      (callback s.request httpResponseNew).keepConnected = true ∧
        GetsOut m.answers (callback s.request httpResponseNew) ∧
          httpRequestCloseConnection m.byteDiff s.request = .returned true := by
  set resp := callback s.request httpResponseNew with hresp
  have hdone := parse_done hparse
  have honMessage : httpOnMessage m.toMessageAnswers w =
      respond m.toMessageAnswers w.heap.next s.request (w.afterParse s) := by
    rw [httpOnMessage_eq m.toMessageAnswers hq, hparse]
    rfl
  have hdata' : (w.afterParse s).conn.data = some ⟨some callback⟩ := hdata
  have hw' : Unqueued (w.afterParse s) := hw.of_conn rfl rfl
  unfold PersistenceAgrees
  rw [honMessage]
  constructor
  · rintro ⟨w', later, hreturned, htrace, hclose, hkeep, -⟩
    obtain ⟨hencodable, hfit, htaken, closes, hcloses, rfl⟩ :=
      respond_trace_cases hw' hdone hdata' hreturned
    obtain ⟨later₁, htrace₁, hshuts⟩ := answered_sent_trace
      ((w.afterParse s).emit (.request w.heap.next s.request))
      ((responseStrings resp).flatMap cutBytes) s.request closes
    -- the trace tells which bytes were sent and what was done behind them
    rw [htrace₁, World.emit_trace, List.append_assoc] at htrace
    have hevents := List.append_cancel_left htrace
    simp only [List.cons_append, List.nil_append, List.cons.injEq, Event.passed.injEq, true_and]
      at hevents
    obtain ⟨hwhole, rfl⟩ := hevents
    have hfits := hfit.sizesFit hwhole
    rw [hshuts] at hclose hkeep
    by_cases hset : resp.keepConnected = true
    · have hshut := hclose.1 (says_of_keep hset).1
      rw [hshut] at hcloses
      rw [hwhole] at htaken
      exact ⟨hset, ⟨hencodable, hfits, htaken⟩, hcloses⟩
    · obtain ⟨body, hbody⟩ := Option.isSome_iff_exists.1 (hencodable.body.resolve_left hset)
      have hsays := says_of_not_keep hset hbody (body_lt_of_sizesFit hbody hfits)
      exact absurd (hkeep.1 hsays).1 hset
  · rintro ⟨hset, hout, hcloses⟩
    obtain ⟨later, htrace, hshuts⟩ := answered_sent_trace
      ((w.afterParse s).emit (.request w.heap.next s.request)) (responseBytes resp) s.request true
    have hshut := hshuts.2 rfl
    obtain ⟨hannounced, hnot⟩ := says_of_keep hset
    refine ⟨_, later, respond_trace hw' hdone hdata' hout hcloses, ?_,
      iff_of_true hannounced hshut, iff_of_false hnot fun h => h.2 hshut, .inl hshut⟩
    rw [htrace, World.emit_trace, List.append_assoc]
    rfl

end Agreement

/-- On a connection with nothing queued, which is how every call leaves it, what is announced
agrees with what happens exactly when `keep_connected` is set, the response gets out whole, and
the request has the connection closed. -/
theorem persistence_iff (m : ServedMessage) (w : World) (q₀ : HttpRequest) (s : ParseState)
    (version : List UInt8) (last : UInt8) (hs : List RequestHeader)
    (callback : HttpRequest → HttpResponse → HttpResponse) (hq : w.conn.request = some q₀)
    (hparse : Outcome.loop parseTurn m.fuel ⟨w.heap, w.conn.inputBuffer, q₀⟩ = .returned s)
    (hstored : Stored s.request version last hs) (hdata : w.conn.data = some ⟨some callback⟩)
    (hw : Unqueued w) :
    PersistenceAgrees m.toMessageAnswers w s.request (callback s.request httpResponseNew) ↔
      (callback s.request httpResponseNew).keepConnected = true ∧
        GetsOut m.answers (callback s.request httpResponseNew) ∧
          AsksToClose m.byteDiff version last hs := by
  rw [persistenceAgrees_iff_closes m hq hparse hdata hw, hstored.asksToClose_iff]

/-! ## Two requests -/

def getClose : RequestText := ⟨ascii "GET", ascii "/", ascii "HTTP/1.1", [(connectionKey, close)]⟩

lemma getClose_plain : getClose.Plain where
  method := by decide
  url := by decide
  version := by decide
  key := by decide
  value := by decide

/-- What the parser makes of a request that has arrived on a new connection. -/
def parsedOf (r : RequestText) : ParseState :=
  requestParsed ⟨zeroHeap, received r.encode, httpRequestNew⟩ r

lemma loop_arrived {r : RequestText} (hr : r.Plain) (hfits : r.encode.length ≤ initBufferSize)
    (hslots : r.headers.length ≤ requestHeadersCapacity) {fuel : ℕ}
    (hfuel : r.headers.length + 3 ≤ fuel) :
    Outcome.loop parseTurn fuel ⟨zeroHeap, received r.encode, httpRequestNew⟩ =
      .returned (parsedOf r) := by
  have hstart : AtRequest ⟨zeroHeap, received r.encode, httpRequestNew⟩ r [] :=
    ⟨received_wf hfits, rfl, hr.wellFormed, (received_content _).trans (List.append_nil _).symm⟩
  have hroom : RoomFor ⟨zeroHeap, received r.encode, httpRequestNew⟩ r :=
    httpRequestNew_blank.roomFor_iff.2 ⟨by decide, hslots⟩
  rw [loop_encode hstart hroom, if_pos hfuel]
  rfl

lemma parsedOf_stored {r : RequestText} (hslots : r.headers.length ≤ requestHeadersCapacity) :
    Stored (parsedOf r).request r.version 0 (storedHeaders (zeroHeap.skip 3) r.headers) :=
  parsedRequest_stored httpRequestNew_blank hslots

lemma arrived_unqueued (bytes : List UInt8) : Unqueued (arrived bytes) :=
  (httpConnection_unqueued 5 0 0 (fun _ => 0) (fun _ => 0) zeroHeap greeter.server).of_conn rfl rfl

lemma greeting_getsOut : GetsOut (idleAnswers 65536) greeting :=
  ⟨greeter.encodable httpRequestNew, greeter.fits httpRequestNew, 65536, rfl, by decide⟩

/-- The header of that request, in the copies that are made of it. -/
def closeHeader : RequestHeader :=
  ⟨(zeroHeap.skip 3).terminated connectionKey, (zeroHeap.skip 4).terminated close⟩

theorem persistence_iff_close :
    PersistenceAgrees (idleMessage 4 65536).toMessageAnswers (arrived getClose.encode)
      (parsedOf getClose).request greeting :=
  (persistence_iff (idleMessage 4 65536) (arrived getClose.encode) httpRequestNew
    (parsedOf getClose) _ _ _ greeter.callback rfl
    (loop_arrived getClose_plain (by decide) (by decide) (by decide))
    (parsedOf_stored (by decide)) rfl (arrived_unqueued _)).2
    ⟨rfl, greeting_getsOut, closeHeader, firstWith_iff_find.2 (by decide), .inl (by decide)⟩

/-- A request that does not ask to close is told that the connection closes, which stays open. -/
theorem not_persistenceAgrees_open :
    ¬ ∀ (m : ServedMessage) (w : World) (q₀ : HttpRequest) (s : ParseState)
      (version : List UInt8) (last : UInt8) (hs : List RequestHeader)
      (callback : HttpRequest → HttpResponse → HttpResponse),
      w.conn.request = some q₀ →
      Outcome.loop parseTurn m.fuel ⟨w.heap, w.conn.inputBuffer, q₀⟩ = .returned s →
      Stored s.request version last hs → w.conn.data = some ⟨some callback⟩ → Unqueued w →
      PersistenceAgrees m.toMessageAnswers w s.request (callback s.request httpResponseNew) := by
  intro h
  have hparse : Outcome.loop parseTurn 4 ⟨zeroHeap, received getHost.encode, httpRequestNew⟩ =
      .returned (parsedOf getHost) := loop_arrived getHost_plain (by decide) (by decide) (by decide)
  have hrequest : (arrived getHost.encode).conn.request = some httpRequestNew := rfl
  have hdata : (arrived getHost.encode).conn.data = some ⟨some greeter.callback⟩ := rfl
  have hstored := parsedOf_stored (r := getHost) (by decide)
  have hw := arrived_unqueued getHost.encode
  have hagrees := h (idleMessage 4 65536) (arrived getHost.encode) httpRequestNew
    (parsedOf getHost) _ _ _ greeter.callback hrequest hparse hstored hdata hw
  obtain ⟨-, -, hcloses⟩ := (persistenceAgrees_iff_closes (idleMessage 4 65536) hrequest hparse
    hdata hw).1 hagrees
  obtain ⟨header, hfirst, -⟩ := hstored.asksToClose_iff.1 hcloses
  have hnone : (storedHeaders (zeroHeap.skip 3) getHost.headers).find?
      (fun h => decide (connectionKey <+: h.name)) = none := by decide
  cases hnone.symm.trans (firstWith_iff_find.1 hfirst)

end Yolanda
