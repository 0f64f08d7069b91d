import CPYuZe.Yolanda.TcpConnection

/-!
# The outgoing bytes

What the application passes to a connection goes to the socket or waits in the output buffer.
`Intact` is the conservation law: the bytes the socket has taken, followed by the bytes that
wait, are the bytes passed so far.  `Quiet` says that nothing is queued any more once a write
has failed for good.

`tcp_connection_send_data` tests the result of `write()` for being negative after it has put it
into a `size_t`, where it never is; a write that fails is taken for one that wrote `2^64 - 1`
bytes, and the byte in front of the data is queued together with all of the data.  Whatever is
queued, the event loop is then to be told, and a connection has no event loop to tell.  So a
send comes back exactly when the socket takes all of the data at once, and a connection whose
calls all come back has nothing queued (`Unqueued`): `output_intact_iff`.
-/

namespace Yolanda

/-! ## What a trace says -/

@[simp] def Event.acceptedBytes : Event → List UInt8
  | .accepted bytes => bytes
  | _ => []

@[simp] def Event.passedBytes : Event → List UInt8
  | .passed data => data
  | _ => []

/-- The bytes the socket has taken. -/
def accepted (trace : List Event) : List UInt8 := trace.flatMap Event.acceptedBytes

/-- The bytes the application has passed. -/
def passed (trace : List Event) : List UInt8 := trace.flatMap Event.passedBytes

/-- Nothing is queued after a write that has failed for good. -/
def Quiet : List Event → Prop
  | [] => True
  | .writeFailed e :: later => (e.Fatal → ∀ bytes, .queued bytes ∉ later) ∧ Quiet later
  | .add _ _ :: later | .remove _ _ :: later | .update _ :: later | .passed _ :: later
  | .accepted _ :: later | .queued _ :: later | .writeCompleted :: later
  | .shutdownWr _ :: later | .request _ _ :: later => Quiet later

section Traces

@[simp] lemma accepted_nil : accepted [] = [] := rfl

@[simp] lemma accepted_cons (e : Event) (t : List Event) :
    accepted (e :: t) = e.acceptedBytes ++ accepted t := rfl

@[simp] lemma accepted_append (t t' : List Event) :
    accepted (t ++ t') = accepted t ++ accepted t' :=
  List.flatMap_append

@[simp] lemma passed_nil : passed [] = [] := rfl

@[simp] lemma passed_cons (e : Event) (t : List Event) :
    passed (e :: t) = e.passedBytes ++ passed t := rfl

@[simp] lemma passed_append (t t' : List Event) : passed (t ++ t') = passed t ++ passed t' :=
  List.flatMap_append

/-- An event that queues nothing leaves a quiet trace quiet. -/
lemma quiet_append_singleton {t : List Event} {e : Event} (he : ∀ bytes, e ≠ .queued bytes) :
    Quiet (t ++ [e]) ↔ Quiet t := by
  induction t with
  | nil => cases e <;> simp_all [Quiet]
  | cons e' t ih =>
    have hmem : (∀ bytes, .queued bytes ∉ t ++ [e]) ↔ ∀ bytes, .queued bytes ∉ t := by
      simp only [List.mem_append, List.mem_singleton, not_or]
      exact ⟨fun h bytes => (h bytes).1, fun h bytes => ⟨h bytes, (he bytes).symm⟩⟩
    cases e' <;> simp only [List.cons_append, Quiet, ih, hmem]

end Traces

/-! ## Runs of a connection -/

/-- The bytes at a `void *` with an `int` for their number. -/
structure Payload where
  bytes : List UInt8
  fits : bytes.length < 2 ^ 31

/-- A buffer to be sent. -/
structure OutgoingBuffer where
  buffer : Buffer
  wf : buffer.Wf
  fits : bufferReadableSize buffer < 2 ^ 31

inductive ConnOp
  | sendData (front : UInt8) (data : Payload) (k : Answers)
  | sendBuffer (outside : UInt8) (buffer : OutgoingBuffer) (k : Answers)
  | handleWrite (k : Answers)

/-- The write-completed callback leaves a mark; what it sends comes as operations of their
own. -/
def onWriteCompleted (w : World) : World := w.emit .writeCompleted

def connStep (w : World) : ConnOp → Call World
  | .sendData front data k => do
    let (w, _) ← tcpConnectionSendData w front data.bytes k
    pure w
  | .sendBuffer outside buffer k => do
    let (w, _, _) ← tcpConnectionSendBuffer w outside buffer.buffer k
    pure w
  | .handleWrite k => handleWrite (some onWriteCompleted) w k

/-- A send, as the byte in front of the data, the data, and the answers it gets. -/
structure SendArgs where
  front : UInt8
  data : Payload
  k : Answers

def OutgoingBuffer.payload (b : OutgoingBuffer) : Payload :=
  ⟨b.buffer.content, b.wf.length_content ▸ b.fits⟩

def ConnOp.send : ConnOp → Option SendArgs
  | .sendData front data k => some ⟨front, data, k⟩
  | .sendBuffer outside b k =>
    some ⟨if b.buffer.readIndex = 0 then outside
      else b.buffer.data.getD (b.buffer.readIndex - 1) outside, b.payload, k⟩
  | .handleWrite _ => none

/-- What a send puts into the output buffer. -/
def SendArgs.rest (a : SendArgs) (w : World) : List UInt8 :=
  restOfSend w a.front a.data.bytes a.k.write

def SendArgs.written (a : SendArgs) (w : World) : World := afterWrite w a.data.bytes a.k.write

/-- The world a send leaves. -/
def SendArgs.run (a : SendArgs) (w : World) : Call World :=
  tcpConnectionSendData w a.front a.data.bytes a.k >>= fun r => .returned r.1

lemma connStep_eq_run {w : World} {op : ConnOp} {a : SendArgs} (h : op.send = some a) :
    connStep w op = a.run w := by
  cases op with
  | sendData front data k =>
    cases h
    rfl
  | sendBuffer outside b k =>
    cases h
    simp only [connStep, tcpConnectionSendBuffer, SendArgs.run, OutgoingBuffer.payload]
    cases tcpConnectionSendData w _ b.buffer.content k <;> rfl
  | handleWrite k => cases h

/-- A send writes, if it may, and queues what is left. -/
lemma SendArgs.run_eq (a : SendArgs) (w : World) :
    a.run w =
      if a.rest w = [] then .returned (a.written w)
      else queueRest (a.written w) (a.rest w) a.k.realloc := by
  obtain ⟨n, hn⟩ := tcpConnectionSendData_eq w a.front a.data.fits a.k
  unfold SendArgs.run SendArgs.rest SendArgs.written
  rw [hn]
  by_cases hrest : restOfSend w a.front a.data.bytes a.k.write = []
  · rw [if_pos hrest, if_pos hrest]
    rfl
  · rw [if_neg hrest, if_neg hrest]
    cases queueRest (afterWrite w a.data.bytes a.k.write) _ a.k.realloc <;> rfl

/-! ## A connection with nothing queued -/

/-- Nothing waits, the channel does not ask to write, and what it has for its data is the
connection. -/
structure Unqueued (w : World) : Prop where
  wf : w.conn.outputBuffer.Wf
  unsent : w.unsent = []
  flag : channelWriteEventIsEnabled w.conn.channel = false
  data : ∃ self, w.conn.channel.data = .tcpConnection self

/-- The `write()` of the send takes all of the data. -/
def SendArgs.TakenWhole (a : SendArgs) : Prop :=
  ∃ n, a.k.write = .wrote n ∧ a.data.bytes.length ≤ n

/-- The world after data has been passed that the socket has taken. -/
def World.sent (w : World) (data : List UInt8) : World :=
  (w.emit (.passed data)).emit (.accepted data)

@[simp] lemma World.sent_conn (w : World) (data : List UInt8) : (w.sent data).conn = w.conn := rfl

@[simp] lemma World.sent_trace (w : World) (data : List UInt8) :
    (w.sent data).trace = w.trace ++ [.passed data] ++ [.accepted data] := rfl

namespace Unqueued

variable {w w' : World} {a : SendArgs}

/-- What only adds to the record, or takes in bytes, leaves nothing queued. -/
lemma of_conn (h : Unqueued w) (houtput : w'.conn.outputBuffer = w.conn.outputBuffer)
    (hchannel : w'.conn.channel = w.conn.channel) : Unqueued w' where
  wf := houtput ▸ h.wf
  unsent := by
    rw [World.unsent, houtput]
    exact h.unsent
  flag := hchannel ▸ h.flag
  data := hchannel ▸ h.data

lemma readable (h : Unqueued w) : bufferReadableSize w.conn.outputBuffer = 0 := by
  rw [← h.wf.length_content]
  exact congrArg List.length h.unsent

lemma direct (h : Unqueued w) : w.Direct := ⟨h.flag, h.readable⟩

lemma rest_eq_nil_iff (h : Unqueued w) : a.rest w = [] ↔ a.TakenWhole := by
  unfold SendArgs.rest restOfSend SendArgs.TakenWhole
  rw [if_pos h.direct]
  cases a.k.write <;> simp

lemma written_eq (h : Unqueued w) (htaken : a.TakenWhole) : a.written w = w.sent a.data.bytes := by
  obtain ⟨n, hwrite, hle⟩ := htaken
  unfold SendArgs.written afterWrite World.sent
  rw [if_pos h.direct, hwrite]
  show (w.emit _).emit (.accepted (a.data.bytes.take n)) = _
  rw [List.take_of_length_le hle]

lemma sent (h : Unqueued w) (data : List UInt8) : Unqueued (w.sent data) := h.of_conn rfl rfl

/-- A send comes back exactly when the socket has taken all of the data: what it leaves has to be
queued, and then the loop is told. -/
lemma run_returned_iff (h : Unqueued w) :
    a.run w = .returned w' ↔ a.TakenWhole ∧ w' = w.sent a.data.bytes := by
  rw [a.run_eq w]
  by_cases htaken : a.TakenWhole
  · rw [if_pos (h.rest_eq_nil_iff.2 htaken), h.written_eq htaken, Outcome.returned.injEq, eq_comm]
    exact (and_iff_right htaken).symm
  · rw [if_neg fun hrest => htaken (h.rest_eq_nil_iff.1 hrest)]
    have hconn : (a.written w).conn = w.conn := afterWrite_conn w a.data.bytes a.k.write
    have hnever : queueRest (a.written w) (a.rest w) a.k.realloc ≠ .returned w' :=
      queueRest_ne_returned (hconn ▸ h.flag) (hconn ▸ h.data)
    exact iff_of_false hnever fun hboth => htaken hboth.1

/-- A write event finds nothing to write. -/
lemma handleWrite_cases (h : Unqueued w) (callback : Option (World → World)) (k : Answers) :
    (∃ e, handleWrite callback w k = .returned (w.emit (.writeFailed e))) ∨
      handleWrite callback w k = .returned (w.emit (.accepted [])) := by
  unfold handleWrite
  cases k.write with
  | failed e => exact .inl ⟨e, rfl⟩
  | wrote n =>
    right
    have hcontent : w.conn.outputBuffer.content = [] := h.unsent
    simp [h.readable, hcontent]

end Unqueued

lemma tcpConnectionNew_unqueued (connectedFd : ℤ) (eventLoop self : ℕ)
    (fresh₁ fresh₂ : ℕ → UInt8) (heap : Heap) :
    Unqueued (tcpConnectionNew connectedFd eventLoop none self fresh₁ fresh₂ heap) where
  wf := bufferNew_wf fresh₂
  unsent := bufferNew_content fresh₂
  flag := by
    show (eventRead &&& eventWrite != 0#32) = false
    decide
  data := ⟨self, rfl⟩

/-! ## The calls of a run -/

/-- If the call is a send, its `write()` takes all of the data. -/
def WritesThrough (op : ConnOp) : Prop := ∀ a, op.send = some a → a.TakenWhole

/-- What a call that comes back has done: a send whose data the socket has taken, or a write event
with nothing to write. -/
lemma Unqueued.connStep_cases {w w' : World} {op : ConnOp} (h : Unqueued w)
    (hstep : connStep w op = .returned w') :
    (∃ a, op.send = some a ∧ a.TakenWhole ∧ w' = w.sent a.data.bytes) ∨
      op.send = none ∧ ((∃ e, w' = w.emit (.writeFailed e)) ∨ w' = w.emit (.accepted [])) := by
  cases hop : op.send with
  | some a =>
    rw [connStep_eq_run hop] at hstep
    obtain ⟨htaken, rfl⟩ := h.run_returned_iff.1 hstep
    exact .inl ⟨a, rfl, htaken, rfl⟩
  | none =>
    right
    cases op with
    | handleWrite k =>
      refine ⟨rfl, ?_⟩
      rcases h.handleWrite_cases (some onWriteCompleted) k with ⟨e, hw⟩ | hw
      · exact .inl ⟨e, Outcome.returned.inj (hstep.symm.trans hw)⟩
      · exact .inr (Outcome.returned.inj (hstep.symm.trans hw))
    | sendData _ _ _ | sendBuffer _ _ _ => cases hop

lemma Unqueued.connStep_returns_iff {w : World} {op : ConnOp} (h : Unqueued w) :
    (∃ w', connStep w op = .returned w') ↔ WritesThrough op := by
  cases hop : op.send with
  | some a =>
    simp only [connStep_eq_run hop, h.run_returned_iff, WritesThrough, hop, Option.some.injEq,
      forall_eq', exists_and_left, exists_eq, and_true]
  | none =>
    cases op with
    | handleWrite k =>
      refine iff_of_true ?_ nofun
      rcases h.handleWrite_cases (some onWriteCompleted) k with ⟨e, hw⟩ | hw
      · exact ⟨_, hw⟩
      · exact ⟨_, hw⟩
    | sendData _ _ _ | sendBuffer _ _ _ => cases hop

/-! ## Conservation -/

/-- What the socket has taken and what waits is what has been passed. -/
def Intact (w : World) : Prop := accepted w.trace ++ w.unsent = passed w.trace

structure OutputSound (w : World) : Prop where
  unqueued : Unqueued w
  intact : Intact w
  quiet : Quiet w.trace

lemma tcpConnectionNew_outputSound (connectedFd : ℤ) (eventLoop self : ℕ)
    (fresh₁ fresh₂ : ℕ → UInt8) (heap : Heap) :
    OutputSound (tcpConnectionNew connectedFd eventLoop none self fresh₁ fresh₂ heap) := by
  refine ⟨tcpConnectionNew_unqueued connectedFd eventLoop self fresh₁ fresh₂ heap, ?_, ?_⟩
  · simp [Intact, World.unsent, tcpConnectionNew]
  · simp [tcpConnectionNew, Quiet]

/-- A call that comes back keeps the account. -/
lemma OutputSound.step {w w' : World} {op : ConnOp} (h : OutputSound w)
    (hstep : connStep w op = .returned w') : OutputSound w' := by
  have hintact : accepted w.trace = passed w.trace := by
    have := h.intact
    rwa [Intact, h.unqueued.unsent, List.append_nil] at this
  rcases h.unqueued.connStep_cases hstep with ⟨a, -, -, rfl⟩ | ⟨-, ⟨e, rfl⟩ | rfl⟩
  · refine ⟨h.unqueued.sent _, ?_, ?_⟩
    · rw [Intact, (h.unqueued.sent _).unsent]
      simp [hintact]
    · simp only [World.sent_trace]
      rw [quiet_append_singleton (by simp), quiet_append_singleton (by simp)]
      exact h.quiet
  · refine ⟨h.unqueued.of_conn rfl rfl, ?_, (quiet_append_singleton (by simp)).2 h.quiet⟩
    rw [Intact, World.unsent, World.emit_conn, ← World.unsent, h.unqueued.unsent]
    simp [hintact]
  · refine ⟨h.unqueued.of_conn rfl rfl, ?_, (quiet_append_singleton (by simp)).2 h.quiet⟩
    rw [Intact, World.unsent, World.emit_conn, ← World.unsent, h.unqueued.unsent]
    simp [hintact]

/-- The call comes back, the account is kept, and nothing is queued after a fatal error. -/
def KeepsOutput (w : World) (op : ConnOp) : Prop :=
  ∃ w', connStep w op = .returned w' ∧ Intact w' ∧ Quiet w'.trace

lemma OutputSound.keepsOutput_iff {w : World} {op : ConnOp} (h : OutputSound w) :
    KeepsOutput w op ↔ WritesThrough op := by
  rw [← h.unqueued.connStep_returns_iff]
  constructor
  · rintro ⟨w', hstep, -⟩
    exact ⟨w', hstep⟩
  · rintro ⟨w', hstep⟩
    have hsound := h.step hstep
    exact ⟨w', hstep, hsound.intact, hsound.quiet⟩

/-- A connection that `tcp_connection_new` has made keeps its account through a run exactly
when the `write()` of every send takes all of the data. -/
theorem output_intact_iff (connectedFd : ℤ) (eventLoop self : ℕ) (fresh₁ fresh₂ : ℕ → UInt8)
    (heap : Heap) (ops : List ConnOp) :
    Outcome.Throughout connStep KeepsOutput
        (tcpConnectionNew connectedFd eventLoop none self fresh₁ fresh₂ heap) ops ↔
      ∀ op ∈ ops, WritesThrough op := by
  have hnew := tcpConnectionNew_outputSound connectedFd eventLoop self fresh₁ fresh₂ heap
  generalize tcpConnectionNew connectedFd eventLoop none self fresh₁ fresh₂ heap = w at hnew
  induction ops generalizing w with
  | nil => simp [Outcome.Throughout]
  | cons op ops ih =>
    rw [List.forall_mem_cons]
    constructor
    · rintro ⟨hkeeps, hrest⟩
      have hop := hnew.keepsOutput_iff.1 hkeeps
      obtain ⟨w', hstep⟩ := hnew.unqueued.connStep_returns_iff.2 hop
      exact ⟨hop, (ih w' (hnew.step hstep)).1 (hrest w' hstep)⟩
    · rintro ⟨hop, hops⟩
      exact ⟨hnew.keepsOutput_iff.2 hop, fun w' hstep => (ih w' (hnew.step hstep)).2 hops⟩

def threeBytes : Payload := ⟨[97, 98, 99], by decide⟩

/-- Three bytes are sent while the socket has no room. -/
def sendWouldBlock : ConnOp :=
  .sendData 0 threeBytes ⟨.failed .EWOULDBLOCK, fun _ => some fun _ => 0⟩

/-- A direct write that would block queues the byte in front of the data, and the call does not
come back. -/
theorem output_not_intact_after_wouldBlock :
    ¬ ∀ (connectedFd : ℤ) (eventLoop self : ℕ) (fresh₁ fresh₂ : ℕ → UInt8) (heap : Heap)
      (ops : List ConnOp), Outcome.Throughout connStep KeepsOutput
        (tcpConnectionNew connectedFd eventLoop none self fresh₁ fresh₂ heap) ops := by
  intro h
  have hsound := tcpConnectionNew_outputSound 5 0 0 (fun _ => 0) (fun _ => 0) ⟨fun _ _ => 0, 0, 0⟩
  have hkeeps := (h 5 0 0 (fun _ => 0) (fun _ => 0) ⟨fun _ _ => 0, 0, 0⟩ [sendWouldBlock]).1
  obtain ⟨n, hwrite, -⟩ := hsound.keepsOutput_iff.1 hkeeps _ rfl
  cases hwrite

end Yolanda
