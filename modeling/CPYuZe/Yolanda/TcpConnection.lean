import CPYuZe.Yolanda.Channel
import CPYuZe.Yolanda.HttpRequest
import CPYuZe.Yolanda.HttpResponse

/-!
# Connections

`struct tcp_connection` and `tcp_connection.c`.  A `World` is one connection together with the
allocator and a record of what has happened (`Event`): which data was passed to the send
functions, which bytes the socket took, which writes failed, which bytes were put into the
output buffer, and which requests went to which event loop.  The record is read by properties
only.

Every call comes with what the kernel and the allocator answer in it (`Answers`): one result of
`write()` and one of `realloc()` at most.

`tcp_connection_send_data` holds the result of `write()` in a `size_t`.  The model keeps that:
`nwrited` and `nleft` are 64-bit words, `-1` is the largest of them, and the byte in front of
the data (`front`) is part of the input because the pointer `data + nwrited` can lead there.

`channel_write_event_enable` and `channel_write_event_disable` call
`event_loop_update_channel_event` with whatever the channel has for its data.  Only an event loop
has a mutex that can be locked there and a list the request can be put into; with anything else
the call goes wrong (`World.requestUpdate`).

The callbacks of a connection are arguments of the functions that run them.  The name of a
connection is only logged, its `response` is never used, and the check of `handle_write` that
it runs in the thread of the loop holds because only the loop runs it; they are left out.
-/

namespace Yolanda

/-- `struct http_server`, as far as a connection gets to see it. -/
structure HttpServer where
  requestCallback : Option (HttpRequest → HttpResponse → HttpResponse)

/-- `data` and `request` are `none` as long as nothing is stored in them. -/
structure TcpConnection where
  eventLoop : ℕ
  channel : Channel
  inputBuffer : Buffer
  outputBuffer : Buffer
  data : Option HttpServer
  request : Option HttpRequest

inductive Event
  /-- An add request for the channel went to an event loop. -/
  | add (eventLoop : ℕ) (channel : Channel)
  /-- A remove request for the channel went to an event loop. -/
  | remove (eventLoop : ℕ) (channel : Channel)
  /-- An update request went to an event loop. -/
  | update (request : UpdateRequest)
  /-- The application passed data to a send function. -/
  | passed (data : List UInt8)
  /-- The socket took bytes. -/
  | accepted (bytes : List UInt8)
  | writeFailed (e : Errno)
  /-- Bytes were put into the output buffer. -/
  | queued (bytes : List UInt8)
  /-- The write-completed callback was run. -/
  | writeCompleted
  /-- The write side of the socket was shut down with these bytes in the output buffer. -/
  | shutdownWr (unsent : List UInt8)
  /-- A request was handed to `requestCallback`; it was parsed when there had been this many
  allocations. -/
  | request (allocated : ℕ) (request : HttpRequest)

structure World where
  conn : TcpConnection
  heap : Heap
  trace : List Event

/-- What the kernel and the allocator answer in one call. -/
structure Answers where
  write : WriteResult
  realloc : Realloc

namespace World

def emit (w : World) (e : Event) : World := { w with trace := w.trace ++ [e] }

@[simp] lemma emit_conn (w : World) (e : Event) : (w.emit e).conn = w.conn := rfl

@[simp] lemma emit_heap (w : World) (e : Event) : (w.emit e).heap = w.heap := rfl

@[simp] lemma emit_trace (w : World) (e : Event) : (w.emit e).trace = w.trace ++ [e] := rfl

def setOutput (w : World) (b : Buffer) : World :=
  { w with conn := { w.conn with outputBuffer := b } }

def setInput (w : World) (b : Buffer) : World :=
  { w with conn := { w.conn with inputBuffer := b } }

def setChannel (w : World) (c : Channel) : World := { w with conn := { w.conn with channel := c } }

@[simp] lemma setOutput_output (w : World) (b : Buffer) :
    (w.setOutput b).conn.outputBuffer = b := rfl

@[simp] lemma setOutput_channel (w : World) (b : Buffer) :
    (w.setOutput b).conn.channel = w.conn.channel := rfl

@[simp] lemma setOutput_trace (w : World) (b : Buffer) : (w.setOutput b).trace = w.trace := rfl

@[simp] lemma setChannel_output (w : World) (c : Channel) :
    (w.setChannel c).conn.outputBuffer = w.conn.outputBuffer := rfl

@[simp] lemma setChannel_channel (w : World) (c : Channel) :
    (w.setChannel c).conn.channel = c := rfl

@[simp] lemma setChannel_trace (w : World) (c : Channel) :
    (w.setChannel c).trace = w.trace := rfl

/-- The bytes waiting in the output buffer. -/
def unsent (w : World) : List UInt8 := w.conn.outputBuffer.content

/-- `channel_write_event_enable(channel)` and `channel_write_event_disable(channel)`: the flags of
the channel are changed, and what is taken for an event loop is sent the request. -/
def requestUpdate (w : World) (u : Channel × UpdateRequest) : Call World :=
  match u.2.eventLoop with
  | .eventLoop _ => .returned ((w.setChannel u.1).emit (.update u.2))
  | .tcpServer _ | .tcpConnection _ => .faulted .wrongObject

end World

/-! ## The functions of `tcp_connection.c` -/

/-- `write(fd, bytes, size)`: what becomes of the record, and the result as a `size_t`. -/
def sysWrite (w : World) (bytes : List UInt8) : WriteResult → World × BitVec 64
  | .wrote n => (w.emit (.accepted (bytes.take n)), BitVec.ofNat 64 (min n bytes.length))
  | .failed e => (w.emit (.writeFailed e), BitVec.ofInt 64 (-1))

def WriteResult.errno : WriteResult → Option Errno
  | .wrote _ => none
  | .failed e => some e

/-- The first part of `tcp_connection_send_data`: the world, `nwrited`, `nleft` and `fault`. -/
def tryWrite (w : World) (data : List UInt8) (result : WriteResult) :
    World × BitVec 64 × BitVec 64 × Bool :=
  let nleft := BitVec.ofNat 64 data.length
  if !channelWriteEventIsEnabled w.conn.channel &&
      bufferReadableSize w.conn.outputBuffer == 0 then
    let (w, nwrited) := sysWrite w data result
    -- both sides are unsigned, so the second branch is never taken
    if nwrited ≥ 0#64 then (w, nwrited, nleft - nwrited, false)
    else
      let fault := result.errno != some .EWOULDBLOCK &&
        (result.errno == some .EPIPE || result.errno == some .ECONNRESET)
      (w, 0#64, nleft, fault)
  else (w, 0#64, nleft, false)

/-- The second part of `tcp_connection_send_data`, for the bytes from `data + nwrited` on. -/
def queueRest (w : World) (rest : List UInt8) (r : Realloc) : Call World := do
  let b ← bufferAppendInt r w.conn.outputBuffer rest
  let w := (w.setOutput b).emit (.queued rest)
  if !channelWriteEventIsEnabled w.conn.channel then
    w.requestUpdate (channelWriteEventEnable w.conn.channel)
  else pure w

/-- `front` is the byte in front of the data. -/
def tcpConnectionSendData (w : World) (front : UInt8) (data : List UInt8) (k : Answers) :
    Call (World × ℤ) :=
  match tryWrite (w.emit (.passed data)) data k.write with
  | (w, nwrited, nleft, fault) =>
    if fault = false ∧ nleft > 0#64 then do
      let rest := ((front :: data).drop (nwrited + 1#64).toNat).take nleft.toNat
      let w ← queueRest w rest k.realloc
      pure (w, (nwrited.setWidth 32).toInt)
    else .returned (w, (nwrited.setWidth 32).toInt)

/-- `outside` is the byte in front of the allocation of the buffer. -/
def tcpConnectionSendBuffer (w : World) (outside : UInt8) (buffer : Buffer) (k : Answers) :
    Call (World × Buffer × ℤ) := do
  let size := bufferReadableSize buffer
  let front := if buffer.readIndex = 0 then outside
    else buffer.data.getD (buffer.readIndex - 1) outside
  let (w, result) ← tcpConnectionSendData w front buffer.content k
  pure (w, buffer.advance size, result)

def handleWrite (writeCompletedCallBack : Option (World → World)) (w : World) (k : Answers) :
    Call World :=
  let output := w.conn.outputBuffer
  match k.write with
  | .failed e => .returned (w.emit (.writeFailed e))
  | .wrote n =>
    let nwrited := min n (bufferReadableSize output)
    let w := w.emit (.accepted (output.content.take n))
    if nwrited > 0 then do
      let w := w.setOutput (output.advance nwrited)
      let w ←
        if bufferReadableSize w.conn.outputBuffer = 0 then
          w.requestUpdate (channelWriteEventDisable w.conn.channel)
        else pure w
      match writeCompletedCallBack with
      | some callback => pure (callback w)
      | none => pure w
    else .returned w

def tcpConnectionShutdown (w : World) : World := w.emit (.shutdownWr w.unsent)

def handleConnectionClosed (connectionClosedCallBack : Option (World → World)) (w : World) :
    World :=
  let w := w.emit (.remove w.conn.eventLoop w.conn.channel)
  match connectionClosedCallBack with
  | some callback => callback w
  | none => w

def handleRead (messageCallBack : Option (World → Call World))
    (connectionClosedCallBack : Option (World → World)) (r : Realloc) (result : ReadvResult)
    (w : World) : Call World := do
  let (input, n) ← bufferSocketRead r w.conn.inputBuffer result
  let w := w.setInput input
  if n > 0 then
    match messageCallBack with
    | some callback => callback w
    | none => pure w
  else pure (handleConnectionClosed connectionClosedCallBack w)

/-- `self` is the address of the new connection, `fresh₁` and `fresh₂` are what the allocations
of the buffers hold. -/
def tcpConnectionNew (connectedFd : ℤ) (eventLoop : ℕ)
    (connectionCompletedCallBack : Option (TcpConnection → TcpConnection)) (self : ℕ)
    (fresh₁ fresh₂ : ℕ → UInt8) (heap : Heap) : World :=
  let conn : TcpConnection :=
    { eventLoop := eventLoop
      channel := channelNew connectedFd eventRead (some .handleRead) (some .handleWrite)
        (.tcpConnection self)
      inputBuffer := bufferNew fresh₁
      outputBuffer := bufferNew fresh₂
      data := none
      request := none }
  let conn :=
    match connectionCompletedCallBack with
    | some callback => callback conn
    | none => conn
  ⟨conn, heap, [.add conn.eventLoop conn.channel]⟩

/-! ## What a send does -/

/-- The condition for writing directly. -/
def World.Direct (w : World) : Prop :=
  channelWriteEventIsEnabled w.conn.channel = false ∧ bufferReadableSize w.conn.outputBuffer = 0

instance (w : World) : Decidable w.Direct := inferInstanceAs (Decidable (_ ∧ _))

/-- What a send puts into the output buffer: all of the data if it does not write directly, what
`write()` has left of it otherwise, and after a failed `write()` all of it with the byte in
front. -/
def restOfSend (w : World) (front : UInt8) (data : List UInt8) (result : WriteResult) :
    List UInt8 :=
  if w.Direct then
    match result with
    | .wrote n => data.drop n
    | .failed _ => front :: data
  else data

/-- The world after the first part of a send. -/
def afterWrite (w : World) (data : List UInt8) (result : WriteResult) : World :=
  if w.Direct then
    match result with
    | .wrote n => (w.emit (.passed data)).emit (.accepted (data.take n))
    | .failed e => (w.emit (.passed data)).emit (.writeFailed e)
  else w.emit (.passed data)

lemma afterWrite_conn (w : World) (data : List UInt8) (result : WriteResult) :
    (afterWrite w data result).conn = w.conn := by
  unfold afterWrite
  split_ifs
  · cases result <;> rfl
  · rfl

section Send

variable {w : World} {front : UInt8} {data : List UInt8}

lemma tryWrite_direct (h : w.Direct) (result : WriteResult) :
    tryWrite w data result =
      ((sysWrite w data result).1, (sysWrite w data result).2,
        BitVec.ofNat 64 data.length - (sysWrite w data result).2, false) := by
  simp [tryWrite, h.1, h.2]

lemma tryWrite_of_not_direct (h : ¬ w.Direct) (result : WriteResult) :
    tryWrite w data result = (w, 0#64, BitVec.ofNat 64 data.length, false) := by
  have hcond : (!channelWriteEventIsEnabled w.conn.channel &&
      bufferReadableSize w.conn.outputBuffer == 0) = false := by
    by_contra hne
    apply h
    simpa [World.Direct] using hne
  simp [tryWrite, hcond]

lemma toNat_ofNat_lt {n : ℕ} (h : n < 2 ^ 31) : (BitVec.ofNat 64 n).toNat = n := by
  rw [BitVec.toNat_ofNat]
  omega

/-- The words `nwrited` and `nleft` of a direct write that took `n` bytes. -/
lemma words_of_wrote (hlen : data.length < 2 ^ 31) (n : ℕ) :
    (BitVec.ofNat 64 data.length - BitVec.ofNat 64 (min n data.length)).toNat =
      data.length - n ∧
    (BitVec.ofNat 64 (min n data.length) + 1#64).toNat = min n data.length + 1 := by
  constructor
  · rw [BitVec.toNat_sub_of_le]
    · rw [toNat_ofNat_lt hlen, toNat_ofNat_lt (by omega)]
      omega
    · rw [BitVec.le_def, toNat_ofNat_lt hlen, toNat_ofNat_lt (by omega)]
      omega
  · rw [BitVec.toNat_add, toNat_ofNat_lt (by omega)]
    simp only [BitVec.toNat_ofNat]
    omega

/-- The words `nwrited` and `nleft` of a direct write that failed. -/
lemma words_of_failed (hlen : data.length < 2 ^ 31) :
    (BitVec.ofNat 64 data.length - BitVec.ofInt 64 (-1)).toNat = data.length + 1 ∧
    (BitVec.ofInt 64 (-1) + 1#64).toNat = 0 := by
  refine ⟨?_, by decide⟩
  have hneg : BitVec.ofNat 64 data.length - BitVec.ofInt 64 (-1) =
      BitVec.ofNat 64 (data.length + 1) := by
    have hone : BitVec.ofInt 64 (-1) = -1#64 := by decide
    rw [hone, BitVec.sub_eq_add_neg, BitVec.neg_neg, BitVec.ofNat_add]
  rw [hneg, BitVec.toNat_ofNat]
  omega

/-- A send is a write, if there is to be one, and then the queueing of what is left. -/
lemma tcpConnectionSendData_eq (w : World) (front : UInt8) (hlen : data.length < 2 ^ 31)
    (k : Answers) :
    ∃ n : ℤ, tcpConnectionSendData w front data k =
      if restOfSend w front data k.write = [] then .returned (afterWrite w data k.write, n)
      else queueRest (afterWrite w data k.write) (restOfSend w front data k.write) k.realloc >>=
        fun w' => .returned (w', n) := by
  have hdirect : (w.emit (.passed data)).Direct ↔ w.Direct := Iff.rfl
  unfold tcpConnectionSendData
  by_cases h : w.Direct
  · rw [tryWrite_direct (hdirect.2 h)]
    cases hwrite : k.write with
    | wrote n =>
      obtain ⟨hleft, hskip⟩ := words_of_wrote hlen n
      have hrest : ((front :: data).drop (BitVec.ofNat 64 (min n data.length) + 1#64).toNat).take
          (BitVec.ofNat 64 data.length - BitVec.ofNat 64 (min n data.length)).toNat =
            data.drop n := by
        rw [hleft, hskip, List.drop_succ_cons]
        rcases le_total n data.length with hle | hle
        · rw [min_eq_left hle, List.take_of_length_le (by rw [List.length_drop])]
        · rw [Nat.sub_eq_zero_of_le hle, List.take_zero, List.drop_eq_nil_of_le hle]
      have hpos : (BitVec.ofNat 64 data.length - BitVec.ofNat 64 (min n data.length) > 0#64) ↔
          data.drop n ≠ [] := by
        rw [gt_iff_lt, BitVec.lt_def, hleft, Ne, List.drop_eq_nil_iff]
        simp only [BitVec.toNat_ofNat]
        omega
      simp only [sysWrite, restOfSend, afterWrite, if_pos h, true_and, hrest, hpos, ite_not]
      exact ⟨_, rfl⟩
    | failed e =>
      obtain ⟨hleft, hskip⟩ := words_of_failed hlen
      have hrest : ((front :: data).drop (BitVec.ofInt 64 (-1) + 1#64).toNat).take
          (BitVec.ofNat 64 data.length - BitVec.ofInt 64 (-1)).toNat = front :: data := by
        rw [hleft, hskip, List.drop_zero, List.take_of_length_le (by simp)]
      have hpos : BitVec.ofNat 64 data.length - BitVec.ofInt 64 (-1) > 0#64 := by
        rw [gt_iff_lt, BitVec.lt_def, hleft]
        simp only [BitVec.toNat_ofNat]
        omega
      simp only [sysWrite, restOfSend, afterWrite, if_pos h, true_and, hrest, reduceCtorEq,
        if_false]
      rw [if_pos hpos]
      exact ⟨_, rfl⟩
  · rw [tryWrite_of_not_direct (fun h' => h (hdirect.1 h'))]
    have hrest : ((front :: data).drop (0#64 + 1#64).toNat).take
        (BitVec.ofNat 64 data.length).toNat = data := by
      rw [toNat_ofNat_lt hlen]
      have hone : (0#64 + 1#64).toNat = 1 := by decide
      rw [hone, List.drop_succ_cons, List.drop_zero, List.take_length]
    have hpos : BitVec.ofNat 64 data.length > 0#64 ↔ data ≠ [] := by
      rw [gt_iff_lt, BitVec.lt_def, toNat_ofNat_lt hlen, ← List.length_pos_iff]
      simp
    simp only [restOfSend, afterWrite, if_neg h, true_and, hrest, hpos, ite_not]
    exact ⟨_, rfl⟩

/-- A connection whose channel does not have an event loop for its data does not come back from
queueing: the write flag is off, so the loop is to be told. -/
lemma queueRest_ne_returned {rest : List UInt8} {r : Realloc} {w' : World}
    (hflag : channelWriteEventIsEnabled w.conn.channel = false)
    (hdata : ∃ self, w.conn.channel.data = .tcpConnection self) :
    queueRest w rest r ≠ .returned w' := by
  intro h
  obtain ⟨b, -, h⟩ := Outcome.bind_eq_returned.1 h
  obtain ⟨self, hself⟩ := hdata
  simp [hflag, World.requestUpdate, channelWriteEventEnable, hself] at h

end Send

end Yolanda
