import CPYuZe.Yolanda.HttpServer
import CPYuZe.Yolanda.OutputStream

/-!
# The application behind the server

`requestCallback` belongs to the application, and `http_onMessage` relies on it: a response has
to be one that can be encoded, and its strings have to fit in a buffer (`Application`).  With such
an application and an allocator that is not short of memory, the second half of `http_onMessage`
is a send followed by the decision whether to close (`respond_eq`).  On a connection with nothing
queued it comes back exactly if the socket takes the whole response and the decision is made
(`respond_returned_iff`).
-/

namespace Yolanda

/-- An application whose responses can be encoded and sent. -/
structure Application where
  callback : HttpRequest → HttpResponse → HttpResponse
  encodable : ∀ q, Encodable (callback q httpResponseNew)
  fits : ∀ q, SizesFit ⟨0, initBufferSize, initBufferSize⟩
    (responseSizes (callback q httpResponseNew))

def Application.server (app : Application) : HttpServer := ⟨some app.callback⟩

def Application.response (app : Application) (q : HttpRequest) : List UInt8 :=
  responseBytes (app.callback q httpResponseNew)

/-- What the outside answers in a call of `http_onMessage` when there is memory. -/
structure ServedMessage extends MessageAnswers where
  encode_served : encodeRealloc.Succeeds

/-- The world at the end of `http_onMessage`. -/
def answered (w : World) (q : HttpRequest) (closes : Bool) : World :=
  let w := if closes then tcpConnectionShutdown w else w
  { w with conn := { w.conn with request := some (httpRequestReset q) } }

section Respond

variable (m : ServedMessage) {w : World} {q : HttpRequest}

/-- The callback gets the request and the socket what can be appended of the response; then it is
decided whether to close. -/
lemma respond_callback_eq {callback : HttpRequest → HttpResponse → HttpResponse} (n : ℕ)
    (hdone : q.currentState = .requestDone) (hdata : w.conn.data = some ⟨some callback⟩)
    (hencodable : Encodable (callback q httpResponseNew))
    (hfit : StringsFit ⟨0, initBufferSize, initBufferSize⟩
      (responseStrings (callback q httpResponseNew))) :
    ∃ a : SendArgs,
      a.data.bytes = (responseStrings (callback q httpResponseNew)).flatMap cutBytes ∧
      a.k = m.answers ∧
      respond m.toMessageAnswers n q w = a.run (w.emit (.request n q)) >>= fun w' =>
        httpRequestCloseConnection m.byteDiff q >>= fun closes =>
          .returned (answered w' q closes) := by
  obtain ⟨b, hb, happ, htotal⟩ := encodeBuffer_returns m.encode_served (bufferNew_wf m.fresh)
    (bufferNew_total_lt m.fresh) hencodable hfit
  have hcontent : b.content = (responseStrings (callback q httpResponseNew)).flatMap cutBytes := by
    rw [happ.content_eq, bufferNew_content, List.nil_append]
  have hfits : bufferReadableSize b < 2 ^ 31 := by
    have hwrite := happ.wf.write_le
    rw [bufferReadableSize]
    omega
  obtain ⟨a, ha, hbytes, hk⟩ : ∃ a : SendArgs,
      (ConnOp.sendBuffer m.outside ⟨b, happ.wf, hfits⟩ m.answers).send = some a ∧
      a.data.bytes = b.content ∧ a.k = m.answers := ⟨_, rfl, rfl, rfl⟩
  refine ⟨a, hbytes.trans hcontent, hk, ?_⟩
  rw [← connStep_eq_run ha]
  unfold respond
  rw [if_pos hdone, hdata]
  simp only [hb, Outcome.returned_bind, connStep]
  cases tcpConnectionSendBuffer (w.emit (.request n q)) m.outside b m.answers <;> rfl

/-- The application gets the request and the socket its response; then it is decided whether to
close. -/
lemma respond_eq {app : Application} (n : ℕ) (hdone : q.currentState = .requestDone)
    (hdata : w.conn.data = some app.server) :
    ∃ a : SendArgs, a.data.bytes = app.response q ∧ a.k = m.answers ∧
      respond m.toMessageAnswers n q w = a.run (w.emit (.request n q)) >>= fun w' =>
        httpRequestCloseConnection m.byteDiff q >>= fun closes =>
          .returned (answered w' q closes) := by
  obtain ⟨hfit, hwhole⟩ := stringsFit_of_sizesFit (z := ⟨0, initBufferSize, initBufferSize⟩)
    (Nat.zero_add _).le (bufferNew_total_lt m.fresh) (app.fits q)
  obtain ⟨a, hbytes, hrest⟩ := respond_callback_eq m n hdone hdata (app.encodable q) hfit
  exact ⟨a, hbytes.trans hwhole, hrest⟩

/-- The second half of `http_onMessage` comes back exactly if the socket takes the whole response
and it can be decided whether to close. -/
lemma respond_returned_iff {app : Application} (n : ℕ) (h : Unqueued w)
    (hdone : q.currentState = .requestDone) (hdata : w.conn.data = some app.server) (w' : World) :
    respond m.toMessageAnswers n q w = .returned w' ↔
      (∃ k, m.answers.write = .wrote k ∧ (app.response q).length ≤ k) ∧
      ∃ closes, httpRequestCloseConnection m.byteDiff q = .returned closes ∧
        w' = answered ((w.emit (.request n q)).sent (app.response q)) q closes := by
  obtain ⟨a, hbytes, hk, hrespond⟩ := respond_eq m n hdone hdata
  have hrequest : Unqueued (w.emit (.request n q)) := h.of_conn rfl rfl
  have htaken : a.TakenWhole ↔ ∃ k, m.answers.write = .wrote k ∧ (app.response q).length ≤ k := by
    rw [SendArgs.TakenWhole, hbytes, hk]
  rw [hrespond, ← htaken]
  constructor
  · intro hreturned
    obtain ⟨w₁, hsend, hrest⟩ := Outcome.bind_eq_returned.1 hreturned
    obtain ⟨hall, rfl⟩ := hrequest.run_returned_iff.1 hsend
    obtain ⟨closes, hcloses, hdone⟩ := Outcome.bind_eq_returned.1 hrest
    rw [← hbytes]
    exact ⟨hall, closes, hcloses, (Outcome.returned.inj hdone).symm⟩
  · rintro ⟨hall, closes, hcloses, rfl⟩
    rw [hrequest.run_returned_iff.2 ⟨hall, rfl⟩, Outcome.returned_bind, hcloses, hbytes]
    rfl

end Respond

/-! ## Calls on a connection -/

/-- What happens on a connection of the server: a send of the application or a write event, a
shutdown, or a read event with what the outside answers in it. -/
inductive ConnectionCall
  | conn (op : ConnOp)
  | shutdown
  | handleRead (m : MessageAnswers) (r : Realloc) (result : ReadvResult)

def connectionStep (w : World) : ConnectionCall → Call World
  | .conn op => connStep w op
  | .shutdown => .returned (tcpConnectionShutdown w)
  | .handleRead m r result => httpHandleRead m r result w

section Calls

variable {m : MessageAnswers} {w w' : World} {q : HttpRequest}

/-- What the second half of `http_onMessage` leaves, whatever the outside answers: the application
got the request if there is a callback, some data was sent that the socket took, and the request
is reset. -/
lemma respond_cases {n : ℕ} (h : Unqueued w) (hdone : q.currentState = .requestDone)
    (hreturned : respond m n q w = .returned w') :
    ∃ w₁ data closes, (w₁ = w ∨ w₁ = w.emit (.request n q)) ∧
      w' = answered (w₁.sent data) q closes := by
  unfold respond at hreturned
  rw [if_pos hdone] at hreturned
  cases hdata : w.conn.data with
  | none => simp [hdata] at hreturned
  | some server =>
    rw [hdata] at hreturned
    dsimp only at hreturned
    obtain ⟨w₁, resp, hw₁, hunqueued, hrest⟩ : ∃ w₁ resp,
        (w₁ = w ∨ w₁ = w.emit (.request n q)) ∧ Unqueued w₁ ∧
        (httpResponseEncodeBuffer m.encodeRealloc resp (bufferNew m.fresh) >>= fun buffer =>
          tcpConnectionSendBuffer w₁ m.outside buffer m.answers >>= fun x =>
            httpRequestCloseConnection m.byteDiff q >>= fun closes =>
              .returned (answered x.1 q closes)) = .returned w' := by
      cases hcallback : server.requestCallback with
      | none =>
        rw [hcallback] at hreturned
        exact ⟨w, _, .inl rfl, h, hreturned⟩
      | some callback =>
        rw [hcallback] at hreturned
        exact ⟨_, _, .inr rfl, h.of_conn rfl rfl, hreturned⟩
    obtain ⟨b, hencode, hrest⟩ := Outcome.bind_eq_returned.1 hrest
    obtain ⟨⟨w₂, b', result⟩, hsend, hrest⟩ := Outcome.bind_eq_returned.1 hrest
    obtain ⟨closes, -, hlast⟩ := Outcome.bind_eq_returned.1 hrest
    cases hlast
    obtain ⟨hwf, htotal⟩ :=
      encodeBuffer_keeps ⟨bufferNew_wf m.fresh, bufferNew_total_lt m.fresh⟩ hencode
    have hfits : bufferReadableSize b < 2 ^ 31 := by
      have hwrite := hwf.write_le
      rw [bufferReadableSize]
      omega
    have hstep : connStep w₁ (.sendBuffer m.outside ⟨b, hwf, hfits⟩ m.answers) =
        .returned w₂ := by
      simp only [connStep, hsend, Outcome.returned_bind, Outcome.pure_eq]
    rcases hunqueued.connStep_cases hstep with ⟨a, -, -, rfl⟩ | ⟨hnone, -⟩
    · exact ⟨w₁, a.data.bytes, closes, hw₁, rfl⟩
    · cases hnone

/-- A message that has been handled was parsed to a request that is done, and answered. -/
lemma httpOnMessage_cases (h : Unqueued w) (hreturned : httpOnMessage m w = .returned w') :
    ∃ q₀ s w₁ data closes, w.conn.request = some q₀ ∧
      Outcome.loop parseTurn m.fuel ⟨w.heap, w.conn.inputBuffer, q₀⟩ = .returned s ∧
      (w₁ = w.afterParse s ∨ w₁ = (w.afterParse s).emit (.request w.heap.next s.request)) ∧
      w' = answered (w₁.sent data) s.request closes := by
  cases hq : w.conn.request with
  | none => simp [httpOnMessage, hq] at hreturned
  | some q₀ =>
    rw [httpOnMessage_eq m hq] at hreturned
    obtain ⟨s, hloop, hrespond⟩ := Outcome.bind_eq_returned.1 hreturned
    have hunqueued : Unqueued (w.afterParse s) := h.of_conn rfl rfl
    obtain ⟨w₁, data, closes, hw₁, hw'⟩ := respond_cases hunqueued (parse_done hloop) hrespond
    exact ⟨q₀, s, w₁, data, closes, rfl, hloop, hw₁, hw'⟩

/-- A read event takes what has arrived and runs one of two callbacks. -/
lemma httpHandleRead_cases {r : Realloc} {result : ReadvResult}
    (hreturned : httpHandleRead m r result w = .returned w') :
    ∃ input n, bufferSocketRead r w.conn.inputBuffer result = .returned (input, n) ∧
      (n > 0 ∧ httpOnMessage m (w.setInput input) = .returned w' ∨
        w' = handleConnectionClosed (some httpOnConnectionClosed) (w.setInput input)) := by
  obtain ⟨⟨input, n⟩, hread, hreturned⟩ := Outcome.bind_eq_returned.1 hreturned
  refine ⟨input, n, hread, ?_⟩
  by_cases hn : n > 0
  · simp only [if_pos hn] at hreturned
    exact .inl ⟨hn, hreturned⟩
  · simp only [if_neg hn] at hreturned
    cases hreturned
    exact .inr rfl

lemma answered_unqueued (h : Unqueued w) (q : HttpRequest) (closes : Bool) :
    Unqueued (answered w q closes) := by
  cases closes with
  | false => exact h.of_conn rfl rfl
  | true => exact h.of_conn rfl rfl

/-- Nothing is ever queued on a connection of the server. -/
lemma connectionStep_unqueued {c : ConnectionCall} (h : Unqueued w)
    (hreturned : connectionStep w c = .returned w') : Unqueued w' := by
  cases c with
  | conn op =>
    rcases h.connStep_cases hreturned with ⟨a, -, -, rfl⟩ | ⟨-, ⟨e, rfl⟩ | rfl⟩
    · exact h.sent _
    · exact h.of_conn rfl rfl
    · exact h.of_conn rfl rfl
  | shutdown =>
    cases hreturned
    exact h.of_conn rfl rfl
  | handleRead m r result =>
    obtain ⟨input, n, -, ⟨-, hmessage⟩ | rfl⟩ := httpHandleRead_cases hreturned
    · have hinput : Unqueued (w.setInput input) := h.of_conn rfl rfl
      obtain ⟨q₀, s, w₁, data, closes, -, -, hw₁, rfl⟩ := httpOnMessage_cases hinput hmessage
      refine answered_unqueued (Unqueued.sent ?_ data) _ _
      rcases hw₁ with rfl | rfl
      · exact hinput.of_conn rfl rfl
      · exact hinput.of_conn rfl rfl
    · exact h.of_conn rfl rfl

end Calls

lemma httpConnection_unqueued (connectedFd : ℤ) (eventLoop self : ℕ) (fresh₁ fresh₂ : ℕ → UInt8)
    (heap : Heap) (httpServer : HttpServer) :
    Unqueued (httpConnection connectedFd eventLoop self fresh₁ fresh₂ heap httpServer) :=
  (tcpConnectionNew_unqueued connectedFd eventLoop self fresh₁ fresh₂ heap).of_conn rfl rfl

/-! ## An application that answers every request in the same way -/

def greeting : HttpResponse where
  statusCode := .ok
  statusMessage := some (ascii "OK")
  body := none
  responseHeaders := none
  responseHeadersNumber := 0
  keepConnected := true

def greeter : Application where
  callback _ _ := greeting
  encodable _ := ⟨.inl rfl, fun _ h => by cases h⟩
  fits _ := by
    show SizesFit ⟨0, initBufferSize, initBufferSize⟩ (responseSizes greeting)
    decide

def byteDifference : ByteDiff where
  diff x y := x.toNat - y.toNat
  pos_iff x y := by
    rw [UInt8.lt_iff_toNat_lt]
    omega
  neg_iff x y := by
    rw [UInt8.lt_iff_toNat_lt]
    omega

/-- A kernel that takes up to `n` bytes a write, and memory for everything. -/
def idleAnswers (n : ℕ) : Answers := ⟨.wrote n, fun _ => some fun _ => 0⟩

lemma idleAnswers_served (n : ℕ) : (idleAnswers n).realloc.Succeeds := fun _ => rfl

def idleMessage (fuel n : ℕ) : ServedMessage where
  fuel := fuel
  byteDiff := byteDifference
  errorFront := 0
  errorAnswers := idleAnswers n
  fresh _ := 0
  outside := 0
  encodeRealloc := (idleAnswers n).realloc
  answers := idleAnswers n
  encode_served := idleAnswers_served n

/-- A heap full of zeroes that hands out eight bytes more than it is asked for. -/
def zeroHeap : Heap := ⟨fun _ _ => 0, fun _ => 8, 0⟩

end Yolanda
