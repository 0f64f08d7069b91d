import CPYuZe.Yolanda.HttpServer
import CPYuZe.Yolanda.WriteInterest

/-!
# Teardown

A connection is torn down in two places.  `handle_read` calls `handle_connection_closed` when
`buffer_socket_read` brings no bytes, and the error branch of `epoll_dispatch` closes the
descriptor.  `Connected` is a connection with its event loop, with a record of the callbacks of
the application that have been run, and a step is one activation that the dispatcher makes for
the descriptor, or its error branch; an event that reports the descriptor readable and writable
is two steps.

All of it happens in the thread of the loop, so a request is handled at once
(`event_loop_do_channel_event`).  A callback of the application reaches the channel through
`channel_write_event_enable` and `channel_write_event_disable` only, and none closes a
descriptor.

Neither place does what a teardown has to do.  `handle_connection_closed` removes the channel
and runs the callback and leaves the descriptor open; the error branch closes the descriptor and
does nothing else.  And `buffer_socket_read` answers `-1` to every error, so an interrupted read
ends the connection like an end of stream does.  The protocol is therefore kept exactly as long
as nothing ends the connection and no read fails: `keepsProtocol_iff`.
-/

namespace Yolanda

/-- The errors after which a read can be tried again. -/
def Errno.Transient (e : Errno) : Prop :=
  e = .EWOULDBLOCK ∨ e = .EINTR

/-- The callbacks `tcp_connection_new` is given. -/
structure Callbacks where
  messageCallBack : Option (World → Call World)
  writeCompletedCallBack : Option (World → World)
  connectionClosedCallBack : Option (World → World)

/-- A callback of the application that has been run. -/
inductive CallbackRun
  | message
  | writeCompleted
  | connectionClosed
  deriving DecidableEq, Repr

/-- What the kernel and the allocator answer in one step. -/
structure EventAnswers where
  read : ReadvResult
  write : WriteResult
  realloc : Realloc
  served : ℤ → Bool

/-- A connection and its event loop; `fd` is the descriptor of the connection. -/
structure Connected extends Hosted where
  fd : ℤ
  runs : List CallbackRun

/-- What the dispatcher does for the descriptor. -/
inductive Readiness
  /-- It activates the channel with `EVENT_READ`. -/
  | readable (a : EventAnswers)
  /-- It activates the channel with `EVENT_WRITE`. -/
  | writable (a : EventAnswers)
  /-- `EPOLLERR` or `EPOLLHUP` is reported, and `epoll_dispatch` takes its error branch. -/
  | error

namespace Connected

/-- The connection is as a call has left it, and its loop has the flags of the channel and
handles the update requests that were sent to it. -/
def settle (served : ℤ → Bool) (c : Connected) (w : World) : Call Connected := do
  let requests : List ChannelElement := (c.updatesSince w).map fun _ => ⟨.update, c.channel⟩
  let s := c.system.setEvents c.channel w.conn.channel.events
  let s ← System.drain served
    { s with loop := { s.loop with pending := s.loop.pending ++ requests } }
  pure { c with world := w, system := s }

def eventLoopRemoveChannelEvent (served : ℤ → Bool) (c : Connected) : Call Connected := do
  let s ← (c.system.enqueue ⟨.remove, c.channel⟩).drain served
  pure { c with
    world := c.world.emit (.remove c.world.conn.eventLoop c.world.conn.channel)
    system := s }

/-- A callback of the application has been run and has left `w`. -/
def ran (served : ℤ → Bool) (c : Connected) (run : CallbackRun) (w : World) : Call Connected :=
  ({ c with runs := c.runs ++ [run] } : Connected).settle served w

def handleConnectionClosed (k : Callbacks) (served : ℤ → Bool) (c : Connected) :
    Call Connected := do
  let c ← c.eventLoopRemoveChannelEvent served
  match k.connectionClosedCallBack with
  | some callback => c.ran served .connectionClosed (callback c.world)
  | none => pure c

def handleRead (k : Callbacks) (a : EventAnswers) (c : Connected) : Call Connected := do
  let (input, n) ← bufferSocketRead a.realloc c.world.conn.inputBuffer a.read
  let c : Connected := { c with world := c.world.setInput input }
  if n > 0 then
    match k.messageCallBack with
    | some callback => do
      let w ← callback c.world
      c.ran a.served .message w
    | none => pure c
  else c.handleConnectionClosed k a.served

/-- The bytes a write event can write. -/
def nwrited (a : EventAnswers) (c : Connected) : ℕ :=
  match a.write with
  | .wrote n => min n (bufferReadableSize c.world.conn.outputBuffer)
  | .failed _ => 0

/-- `handle_write`, up to its callback and with it. -/
def handleWrite (k : Callbacks) (a : EventAnswers) (c : Connected) : Call Connected := do
  let w ← Yolanda.handleWrite none c.world ⟨a.write, a.realloc⟩
  let c' ← c.settle a.served w
  if c.nwrited a > 0 then
    match k.writeCompletedCallBack with
    | some callback => c'.ran a.served .writeCompleted (callback c'.world)
    | none => pure c'
  else pure c'

def callback (k : Callbacks) (a : EventAnswers) (c : Connected) : Callback → Call Connected
  | .handleRead => c.handleRead k a
  | .handleWrite => c.handleWrite k a
  | .handleWakeup | .handleConnectionEstablished => .returned c

/-- `channel_event_activate(eventLoop, fd, revents)`, with the callbacks of the connection that
it runs. -/
def channelEventActivate (k : Callbacks) (a : EventAnswers) (c : Connected)
    (revents : BitVec 32) : Call Connected := do
  let s ← c.system.channelEventActivate c.fd revents
  if c.system.entry c.fd = some c.channel then
    Outcome.run (callback k a) { c with system := s }
      (System.callbacksFor (c.system.channels c.channel) revents)
  else pure { c with system := s }

def step (k : Callbacks) (c : Connected) : Readiness → Call Connected
  | .readable a => c.channelEventActivate k a eventRead
  | .writable a => c.channelEventActivate k a eventWrite
  | .error => .returned { c with system := c.system.closeFd c.fd }

end Connected

/-! ## The protocol -/

/-- End of stream, an error that is not transient, or an error the dispatcher reports. -/
def Ends : Readiness → Prop
  | .readable a => a.read = .ok [] ∨ ∃ e : Errno, a.read = .error e ∧ ¬ e.Transient
  | .writable _ => False
  | .error => True

/-- There is nothing to read for the moment. -/
def Interrupted : Readiness → Prop
  | .readable a => ∃ e : Errno, a.read = .error e ∧ e.Transient
  | .writable _ | .error => False

/-- The read brings bytes, and the dispatcher reports no error. -/
def StaysUp : Readiness → Prop
  | .readable a => ∃ bytes, a.read = .ok bytes ∧ bytes ≠ []
  | .writable _ => True
  | .error => False

namespace Connected

/-- The channel is registered and the descriptor open. -/
def Registered (c : Connected) : Prop :=
  c.system.entry c.fd = some c.channel ∧ c.system.isOpen c.fd = true

/-- From `c` to `c'` the channel has been removed, the callback has been run, once, and the
descriptor has been released. -/
structure TornDown (k : Callbacks) (c c' : Connected) : Prop where
  entry : c'.system.entry c.fd = none
  unwatched : ¬ c'.system.Watches c.fd
  runs : c'.runs = c.runs ++ (k.connectionClosedCallBack.map fun _ => .connectionClosed).toList
  released : c'.system.isOpen c.fd = false

/-- The connection and its loop are what they were. -/
structure Unchanged (c c' : Connected) : Prop where
  world : c'.world = c.world
  loop : c'.system.loop = c.system.loop
  isOpen : c'.system.isOpen = c.system.isOpen
  runs : c'.runs = c.runs

/-- The connection is registered and open, and has not been reported closed. -/
structure GoesOn (c c' : Connected) : Prop where
  registered : c'.Registered
  runs : ∃ new, c'.runs = c.runs ++ new ∧ .connectionClosed ∉ new

/-- What an event has to do with a connection.  One that ends it tears it down, one that brings
nothing leaves it unchanged, the others let it go on, and once it is torn down no callback of it
is run any more. -/
structure KeepsProtocol (k : Callbacks) (c : Connected) (e : Readiness) : Prop where
  ends : c.Registered → Ends e → ∃ c', step k c e = .returned c' ∧ TornDown k c c'
  interrupted : c.Registered → Interrupted e → ∃ c', step k c e = .returned c' ∧ Unchanged c c'
  goesOn : c.Registered → ¬ Ends e → ¬ Interrupted e →
    ∀ c', step k c e = .returned c' → GoesOn c c'
  afterwards : ¬ c.Registered → ∀ c', step k c e = .returned c' → c'.runs = c.runs

/-- A connection as `tcp_connection_new` and its loop leave it, with no request waiting. -/
structure Up (c : Connected) : Prop where
  registered : c.Registered
  fdOf : c.system.fdOf c.channel = c.fd
  read : (c.system.channels c.channel).eventReadCallback = some .handleRead
  write : (c.system.channels c.channel).eventWriteCallback = some .handleWrite
  pending : c.system.loop.pending = []

/-! ## What the loop does with requests -/

/-- Update requests leave the map and the descriptors alone. -/
lemma drain_updates {served : ℤ → Bool} {s s' : System}
    (hupdates : ∀ e ∈ s.loop.pending, e.type = .update) (h : s.drain served = .returned s') :
    System.SameRound s s' ∧ s'.entry = s.entry ∧ s'.loop.pending = [] := by
  have hpending : s'.loop.pending = [] := by
    obtain ⟨s₁, -, hdone⟩ := Outcome.bind_eq_returned.1 h
    cases hdone
    rfl
  have hkept : (System.SameRound s s' ∧ s'.entry = s.entry) ∧
      ∀ e ∈ s'.loop.pending, e.type = .update := by
    refine System.drain_preserves
      (fun t rest => (System.SameRound s t ∧ t.entry = s.entry) ∧ ∀ e ∈ rest, e.type = .update)
      ?_ ?_ ⟨⟨⟨rfl, rfl, rfl, rfl⟩, rfl⟩, hupdates⟩ h
    · intro t e rest t' ht hstep
      obtain ⟨⟨hsame, hentry⟩, htype⟩ := ht
      obtain ⟨hsame', -, heffect⟩ := System.handleElement_cases hstep
      have hupdate := htype e List.mem_cons_self
      refine ⟨⟨⟨?_, ?_, ?_, ?_⟩, ?_⟩, fun e' he' => htype e' (List.mem_cons_of_mem e he')⟩
      · exact hsame'.channels.trans hsame.channels
      · exact hsame'.created.trans hsame.created
      · exact hsame'.isOpen.trans hsame.isOpen
      · exact hsame'.todo.trans hsame.todo
      · cases heffect with
        | kept entry | updated _ entry => exact entry.trans hentry
        | entered type | removed type =>
          rw [hupdate] at type
          cases type
    · intro t t' ht heq
      subst heq
      exact ⟨⟨⟨ht.1.1.channels, ht.1.1.created, ht.1.1.isOpen, ht.1.1.todo⟩, ht.1.2⟩, ht.2⟩
  exact ⟨hkept.1.1, hkept.1.2, hpending⟩

/-- A drain of one request is the handling of it. -/
lemma drain_singleton {served : ℤ → Bool} {s s' : System} {e : ChannelElement}
    (hpending : s.loop.pending = [e]) :
    s.drain served = .returned s' ↔ ∃ s₁, s.handleElement served e = .returned s₁ ∧
      s' = { s₁ with loop := { s₁.loop with pending := [] } } := by
  unfold System.drain
  rw [hpending, Outcome.bind_eq_returned]
  constructor
  · rintro ⟨s₁, hrun, hdone⟩
    obtain ⟨s₂, hstep, hnil⟩ := Outcome.run_cons_eq_returned.1 hrun
    cases hnil
    cases hdone
    exact ⟨s₁, hstep, rfl⟩
  · rintro ⟨s₁, hstep, hdone⟩
    rw [hdone]
    exact ⟨s₁, Outcome.run_cons_returned hstep _, rfl⟩

/-- A remove request takes the entry out and closes nothing. -/
lemma drain_remove {served : ℤ → Bool} {s s' : System} {channel : ChannelPtr}
    (hpending : s.loop.pending = [])
    (h : (s.enqueue ⟨.remove, channel⟩).drain served = .returned s') :
    System.SameRound s s' ∧ s'.entry (s.fdOf channel) = none ∧ s'.loop.pending = [] := by
  have hone : (s.enqueue ⟨.remove, channel⟩).loop.pending = [⟨.remove, channel⟩] := by
    show s.loop.pending ++ _ = _
    rw [hpending, List.nil_append]
  obtain ⟨s₁, hstep, hs'⟩ := (drain_singleton hone).1 h
  obtain ⟨hsame, -, heffect⟩ := System.handleElement_cases hstep
  rw [hs']
  refine ⟨⟨hsame.channels, hsame.created, hsame.isOpen, hsame.todo⟩, ?_, rfl⟩
  show s₁.entry (s.fdOf channel) = none
  cases heffect with
  | kept entry _ _ absent =>
    rw [entry]
    exact absent rfl
  | removed _ _ _ entry =>
    rw [entry]
    exact Function.update_self _ _ _
  | entered type | updated type => cases type

/-! ## What a step does -/

/-- A read that returns for a buffer returns the number of bytes that came. -/
lemma bufferSocketRead_count {r : Realloc} {b b' : Buffer} {bytes : List UInt8} {n : ℤ}
    (h : bufferSocketRead r b (.ok bytes) = .returned (b', n)) : n = bytes.length := by
  unfold bufferSocketRead at h
  obtain ⟨data, -, hrest⟩ := Outcome.bind_eq_returned.1 h
  by_cases hle : bytes.length ≤ bufferWriteableSize b
  · simp only [if_pos hle] at hrest
    cases hrest
    rfl
  · simp only [if_neg hle] at hrest
    obtain ⟨b₁, -, hdone⟩ := Outcome.bind_eq_returned.1 hrest
    cases hdone
    rfl

section Steps

variable {k : Callbacks} {a : EventAnswers} {served : ℤ → Bool} {c c' : Connected} {w : World}

/-- What the handling of requests of the connection itself leaves alone. -/
structure SameLoop (c c' : Connected) : Prop where
  channel : c'.channel = c.channel
  fd : c'.fd = c.fd
  isOpen : c'.system.isOpen = c.system.isOpen
  entry : c'.system.entry = c.system.entry
  fdOf : c'.system.fdOf = c.system.fdOf
  read : (c'.system.channels c.channel).eventReadCallback =
    (c.system.channels c.channel).eventReadCallback
  write : (c'.system.channels c.channel).eventWriteCallback =
    (c.system.channels c.channel).eventWriteCallback
  pending : c'.system.loop.pending = []

lemma SameLoop.up (h : SameLoop c c') (hup : c.Up) : c'.Up where
  registered := by
    unfold Registered
    rw [h.entry, h.fd, h.channel, h.isOpen]
    exact hup.registered
  fdOf := by
    rw [h.fdOf, h.channel, h.fd]
    exact hup.fdOf
  read := by
    rw [h.channel, h.read]
    exact hup.read
  write := by
    rw [h.channel, h.write]
    exact hup.write
  pending := h.pending

lemma SameLoop.of_eq {c₀ : Connected} (h : SameLoop c₀ c') (hchannel : c₀.channel = c.channel)
    (hfd : c₀.fd = c.fd) (hsystem : c₀.system = c.system) : SameLoop c c' := by
  obtain ⟨channel, fd, isOpen, entry, fdOf, read, write, pending⟩ := h
  rw [hsystem] at isOpen entry fdOf read write
  rw [hchannel] at channel read write
  exact ⟨channel, fd.trans hfd, isOpen, entry, fdOf, read, write, pending⟩

lemma SameLoop.trans {c₁ : Connected} (h : SameLoop c c₁) (h' : SameLoop c₁ c') :
    SameLoop c c' where
  channel := h'.channel.trans h.channel
  fd := h'.fd.trans h.fd
  isOpen := h'.isOpen.trans h.isOpen
  entry := h'.entry.trans h.entry
  fdOf := h'.fdOf.trans h.fdOf
  read := by
    have hread := h'.read
    rw [h.channel] at hread
    exact hread.trans h.read
  write := by
    have hwrite := h'.write
    rw [h.channel] at hwrite
    exact hwrite.trans h.write
  pending := h'.pending

lemma SameLoop.refl (hpending : c.system.loop.pending = []) : SameLoop c c :=
  ⟨rfl, rfl, rfl, rfl, rfl, rfl, rfl, hpending⟩

lemma settle_world (h : c.settle served w = .returned c') : c'.world = w := by
  obtain ⟨s, -, hdone⟩ := Outcome.bind_eq_returned.1 h
  cases hdone
  rfl

lemma settle_cases (hpending : c.system.loop.pending = [])
    (h : c.settle served w = .returned c') :
    SameLoop c c' ∧ c'.runs = c.runs := by
  obtain ⟨s, hdrain, hdone⟩ := Outcome.bind_eq_returned.1 h
  cases hdone
  have hupdates : ∀ e ∈ c.system.loop.pending ++
      (c.updatesSince w).map fun _ => (⟨.update, c.channel⟩ : ChannelElement),
        e.type = .update := by
    intro e he
    rw [hpending, List.nil_append] at he
    obtain ⟨_, -, rfl⟩ := List.mem_map.1 he
    rfl
  obtain ⟨hsame, hentry, hnil⟩ := drain_updates hupdates hdrain
  refine ⟨⟨rfl, rfl, hsame.isOpen, hentry, ?_, ?_, ?_, hnil⟩, rfl⟩
  · exact hsame.fdOf.trans (System.fdOf_setEvents _ _ _)
  · show (s.channels c.channel).eventReadCallback = _
    rw [hsame.channels]
    simp [System.setEvents]
  · show (s.channels c.channel).eventWriteCallback = _
    rw [hsame.channels]
    simp [System.setEvents]

lemma ran_cases {run : CallbackRun} (hpending : c.system.loop.pending = [])
    (h : c.ran served run w = .returned c') :
    SameLoop c c' ∧ c'.runs = c.runs ++ [run] := by
  obtain ⟨hsame, hruns⟩ := settle_cases (c := { c with runs := c.runs ++ [run] }) hpending h
  exact ⟨hsame.of_eq rfl rfl rfl, hruns⟩

/-- `handle_connection_closed` removes the channel and runs the callback once, and the descriptor
stays as it is. -/
lemma handleConnectionClosed_cases (hfd : c.system.fdOf c.channel = c.fd)
    (hpending : c.system.loop.pending = [])
    (h : c.handleConnectionClosed k served = .returned c') :
    c'.system.entry c.fd = none ∧ c'.system.isOpen = c.system.isOpen ∧
      c'.runs = c.runs ++ (k.connectionClosedCallBack.map fun _ => .connectionClosed).toList := by
  obtain ⟨c₁, hremove, hrest⟩ := Outcome.bind_eq_returned.1 h
  obtain ⟨s, hdrain, hdone⟩ := Outcome.bind_eq_returned.1 hremove
  cases hdone
  obtain ⟨hsame, hnone, hnil⟩ := drain_remove hpending hdrain
  rw [hfd] at hnone
  cases hclosed : k.connectionClosedCallBack with
  | none =>
    simp only [hclosed] at hrest
    cases hrest
    exact ⟨hnone, hsame.isOpen, by simp⟩
  | some callback =>
    simp only [hclosed] at hrest
    obtain ⟨hloop, hruns⟩ := ran_cases hnil hrest
    refine ⟨?_, hloop.isOpen.trans hsame.isOpen, hruns⟩
    rw [hloop.entry]
    exact hnone

/-- A read that brings bytes leaves the connection registered. -/
lemma handleRead_ok {bytes : List UInt8} (hread : a.read = .ok bytes) (hne : bytes ≠ [])
    (hpending : c.system.loop.pending = []) (h : c.handleRead k a = .returned c') :
    SameLoop c c' ∧ ∃ new, c'.runs = c.runs ++ new ∧ .connectionClosed ∉ new := by
  obtain ⟨⟨input, n⟩, hsocket, hrest⟩ := Outcome.bind_eq_returned.1 h
  have hn : n > 0 := by
    rw [hread] at hsocket
    rw [bufferSocketRead_count hsocket]
    exact_mod_cast List.length_pos_iff.2 hne
  simp only [if_pos hn] at hrest
  cases hmessage : k.messageCallBack with
  | none =>
    simp only [hmessage] at hrest
    cases hrest
    have hrefl := SameLoop.refl (c := { c with world := c.world.setInput input }) hpending
    exact ⟨hrefl.of_eq rfl rfl rfl, [], by simp, by simp⟩
  | some callback =>
    simp only [hmessage] at hrest
    obtain ⟨w, -, hran⟩ := Outcome.bind_eq_returned.1 hrest
    obtain ⟨hsame, hruns⟩ :=
      ran_cases (c := { c with world := c.world.setInput input }) hpending hran
    exact ⟨hsame.of_eq rfl rfl rfl, [.message], hruns, by simp⟩

/-- A read that brings none is a teardown. -/
lemma handleRead_not_ok (hread : ∀ bytes, a.read = .ok bytes → bytes = [])
    (hfd : c.system.fdOf c.channel = c.fd) (hpending : c.system.loop.pending = [])
    (h : c.handleRead k a = .returned c') :
    c'.system.entry c.fd = none ∧ c'.system.isOpen = c.system.isOpen := by
  obtain ⟨⟨input, n⟩, hsocket, hrest⟩ := Outcome.bind_eq_returned.1 h
  have hn : ¬ n > 0 := by
    cases hresult : a.read with
    | error e =>
      rw [hresult] at hsocket
      cases hsocket
      omega
    | ok bytes =>
      obtain rfl := hread bytes hresult
      rw [hresult] at hsocket
      rw [bufferSocketRead_count hsocket]
      simp
  simp only [if_neg hn] at hrest
  obtain ⟨hnone, hopen, -⟩ := handleConnectionClosed_cases
    (c := { c with world := c.world.setInput input }) hfd hpending hrest
  exact ⟨hnone, hopen⟩

lemma handleWrite_cases (hpending : c.system.loop.pending = [])
    (h : c.handleWrite k a = .returned c') :
    SameLoop c c' ∧ ∃ new, c'.runs = c.runs ++ new ∧ .connectionClosed ∉ new := by
  obtain ⟨w, -, hsettled⟩ := Outcome.bind_eq_returned.1 h
  obtain ⟨c₁, hsettle, hrest⟩ := Outcome.bind_eq_returned.1 hsettled
  obtain ⟨hsame, hruns⟩ := settle_cases hpending hsettle
  have hquiet : SameLoop c c₁ ∧ ∃ new, c₁.runs = c.runs ++ new ∧ .connectionClosed ∉ new :=
    ⟨hsame, [], by simp [hruns], by simp⟩
  by_cases hpos : c.nwrited a > 0
  · simp only [if_pos hpos] at hrest
    cases hwritten : k.writeCompletedCallBack with
    | none =>
      simp only [hwritten] at hrest
      cases hrest
      exact hquiet
    | some callback =>
      simp only [hwritten] at hrest
      obtain ⟨hsame', hruns'⟩ := ran_cases hsame.pending hrest
      refine ⟨hsame.trans hsame', [.writeCompleted], ?_, by simp⟩
      rw [hruns', hruns]
  · simp only [if_neg hpos] at hrest
    cases hrest
    exact hquiet

end Steps

/-! ## The functions of `tcp_connection.c` -/

section World

variable {k : Callbacks} {a : EventAnswers} {served : ℤ → Bool} {c c' : Connected}

/-- To the connection it is the teardown of `tcp_connection.c`. -/
lemma handleConnectionClosed_world (h : c.handleConnectionClosed k served = .returned c') :
    c'.world = Yolanda.handleConnectionClosed k.connectionClosedCallBack c.world := by
  obtain ⟨c₁, hremove, hrest⟩ := Outcome.bind_eq_returned.1 h
  obtain ⟨s, -, hdone⟩ := Outcome.bind_eq_returned.1 hremove
  cases hdone
  unfold Yolanda.handleConnectionClosed
  cases hclosed : k.connectionClosedCallBack with
  | none =>
    simp only [hclosed] at hrest
    cases hrest
    rfl
  | some callback =>
    simp only [hclosed] at hrest
    exact settle_world hrest

/-- To the connection it is the `handle_read` of `tcp_connection.c`. -/
lemma handleRead_world (h : c.handleRead k a = .returned c') :
    Yolanda.handleRead k.messageCallBack k.connectionClosedCallBack a.realloc a.read c.world =
      .returned c'.world := by
  obtain ⟨⟨input, n⟩, hsocket, hrest⟩ := Outcome.bind_eq_returned.1 h
  simp only [Yolanda.handleRead, hsocket, Outcome.returned_bind]
  by_cases hn : n > 0
  · simp only [if_pos hn] at hrest ⊢
    cases hmessage : k.messageCallBack with
    | none =>
      simp only [hmessage] at hrest
      cases hrest
      rfl
    | some callback =>
      simp only [hmessage] at hrest
      obtain ⟨w, hw, hran⟩ := Outcome.bind_eq_returned.1 hrest
      rw [settle_world hran]
      exact hw
  · simp only [if_neg hn] at hrest ⊢
    rw [handleConnectionClosed_world hrest]
    rfl

/-- To the connection it is the `handle_write` of `tcp_connection.c`. -/
lemma handleWrite_world (h : c.handleWrite k a = .returned c') :
    Yolanda.handleWrite k.writeCompletedCallBack c.world ⟨a.write, a.realloc⟩ =
      .returned c'.world := by
  obtain ⟨w, hw, hsettled⟩ := Outcome.bind_eq_returned.1 h
  obtain ⟨c₁, hsettle, hrest⟩ := Outcome.bind_eq_returned.1 hsettled
  have hworld := settle_world hsettle
  unfold nwrited at hrest
  unfold Yolanda.handleWrite at hw ⊢
  cases hwrite : a.write with
  | failed e =>
    simp only [hwrite] at hrest hw ⊢
    cases hrest
    rw [hworld]
    exact hw
  | wrote n =>
    simp only [hwrite] at hrest hw ⊢
    by_cases hpos : min n (bufferReadableSize c.world.conn.outputBuffer) > 0
    · simp only [if_pos hpos] at hrest hw ⊢
      -- what is left of the call when the buffer and the channel have been seen to
      have hlast : (match k.writeCompletedCallBack with
          | some callback => (.returned (callback w) : Call World)
          | none => .returned w) = .returned c'.world := by
        cases hwritten : k.writeCompletedCallBack with
        | none =>
          simp only [hwritten] at hrest
          cases hrest
          rw [hworld]
        | some callback =>
          simp only [hwritten] at hrest
          rw [settle_world hrest, hworld]
      split_ifs at hw ⊢ with hempty
      · obtain ⟨w₁, hupdate, hdone⟩ := Outcome.bind_eq_returned.1 hw
        cases hdone
        rw [hupdate]
        exact hlast
      · cases hw
        exact hlast
    · simp only [if_neg hpos] at hrest hw ⊢
      cases hrest
      rw [hworld]
      exact hw

end World

/-! ## Activations -/

section Activations

variable {k : Callbacks} {a : EventAnswers} {c c' : Connected}

lemma callbacksFor_eventRead (channel : Channel) :
    System.callbacksFor channel eventRead = channel.eventReadCallback.toList := by
  have hread : (eventRead &&& eventRead != 0#32) = true := by decide
  have hwrite : (eventRead &&& eventWrite != 0#32) = false := by decide
  unfold System.callbacksFor
  rw [hread, hwrite]
  simp

lemma callbacksFor_eventWrite (channel : Channel) :
    System.callbacksFor channel eventWrite = channel.eventWriteCallback.toList := by
  have hread : (eventWrite &&& eventRead != 0#32) = false := by decide
  have hwrite : (eventWrite &&& eventWrite != 0#32) = true := by decide
  unfold System.callbacksFor
  rw [hread, hwrite]
  simp

/-- An activation of a registered connection runs the callback of its channel. -/
lemma Up.channelEventActivate (hup : c.Up) {revents : BitVec 32} {cb : Callback}
    (hcalls : System.callbacksFor (c.system.channels c.channel) revents = [cb])
    (h : c.channelEventActivate k a revents = .returned c') :
    ∃ c₁, SameLoop c c₁ ∧ c₁.runs = c.runs ∧ c₁.callback k a cb = .returned c' := by
  obtain ⟨s, hactivate, hrest⟩ := Outcome.bind_eq_returned.1 h
  rw [System.channelEventActivate_returns hup.registered.1 hup.fdOf] at hactivate
  cases hactivate
  rw [if_pos hup.registered.1, hcalls] at hrest
  obtain ⟨c₁, hcallback, hnil⟩ := Outcome.run_cons_eq_returned.1 hrest
  cases hnil
  refine ⟨_, ?_, ?_, hcallback⟩
  · exact ⟨rfl, rfl, rfl, rfl, rfl, rfl, rfl, hup.pending⟩
  · rfl

lemma Up.readable (hup : c.Up) (h : step k c (.readable a) = .returned c') :
    ∃ c₁, SameLoop c c₁ ∧ c₁.runs = c.runs ∧ c₁.handleRead k a = .returned c' := by
  have hcalls :
      System.callbacksFor (c.system.channels c.channel) eventRead = [.handleRead] := by
    rw [callbacksFor_eventRead, hup.read]
    rfl
  exact hup.channelEventActivate hcalls h

lemma Up.writable (hup : c.Up) (h : step k c (.writable a) = .returned c') :
    ∃ c₁, SameLoop c c₁ ∧ c₁.runs = c.runs ∧ c₁.handleWrite k a = .returned c' := by
  have hcalls :
      System.callbacksFor (c.system.channels c.channel) eventWrite = [.handleWrite] := by
    rw [callbacksFor_eventWrite, hup.write]
    rfl
  exact hup.channelEventActivate hcalls h

/-- A step in which a read brings bytes or a write event is handled. -/
lemma Up.goesOn (hup : c.Up) {e : Readiness} (he : StaysUp e) (h : step k c e = .returned c') :
    c'.Up ∧ GoesOn c c' := by
  have hone : SameLoop c c' ∧ ∃ new, c'.runs = c.runs ++ new ∧ .connectionClosed ∉ new := by
    cases e with
    | readable a =>
      obtain ⟨bytes, hread, hne⟩ := he
      obtain ⟨c₁, hsame, hruns, hcall⟩ := hup.readable h
      rw [← hruns]
      obtain ⟨hsame', hnew⟩ := handleRead_ok hread hne hsame.pending hcall
      exact ⟨hsame.trans hsame', hnew⟩
    | writable a =>
      obtain ⟨c₁, hsame, hruns, hcall⟩ := hup.writable h
      rw [← hruns]
      obtain ⟨hsame', hnew⟩ := handleWrite_cases hsame.pending hcall
      exact ⟨hsame.trans hsame', hnew⟩
    | error => exact he.elim
  have hup' := hone.1.up hup
  exact ⟨hup', hup'.registered, hone.2⟩

/-- A read that brings no bytes takes the entry out and leaves the descriptor open. -/
lemma Up.not_ok (hup : c.Up) (hread : ∀ bytes, a.read = .ok bytes → bytes = [])
    (h : step k c (.readable a) = .returned c') :
    c'.system.entry c.fd = none ∧ c'.system.isOpen c.fd = true := by
  obtain ⟨c₁, hsame, -, hcall⟩ := hup.readable h
  have hup₁ := hsame.up hup
  obtain ⟨hnone, hopen⟩ := handleRead_not_ok hread hup₁.fdOf hup₁.pending hcall
  rw [hsame.fd] at hnone
  refine ⟨hnone, ?_⟩
  rw [hopen, hsame.isOpen]
  exact hup.registered.2

lemma Up.not_keepsProtocol_of_readable (hup : c.Up)
    (hread : ∀ bytes, a.read = .ok bytes → bytes = []) : ¬ KeepsProtocol k c (.readable a) := by
  intro hkeeps
  by_cases hinterrupted : Interrupted (.readable a)
  · obtain ⟨c', hstep, hsame⟩ := hkeeps.interrupted hup.registered hinterrupted
    obtain ⟨hnone, -⟩ := hup.not_ok hread hstep
    have hentry : c'.system.entry c.fd = c.system.entry c.fd := by
      unfold System.entry
      rw [hsame.loop]
    rw [hnone, hup.registered.1] at hentry
    cases hentry
  · have hends : Ends (.readable a) := by
      cases hresult : a.read with
      | ok bytes => exact .inl (by rw [hresult, hread bytes hresult])
      | error e => exact .inr ⟨e, hresult, fun he => hinterrupted ⟨e, hresult, he⟩⟩
    obtain ⟨c', hstep, htorn⟩ := hkeeps.ends hup.registered hends
    obtain ⟨-, hopen⟩ := hup.not_ok hread hstep
    rw [htorn.released] at hopen
    cases hopen

lemma Up.not_keepsProtocol_error (hup : c.Up) : ¬ KeepsProtocol k c .error := by
  intro hkeeps
  obtain ⟨c', hstep, htorn⟩ := hkeeps.ends hup.registered trivial
  cases hstep
  have hentry := htorn.entry
  rw [show ({ c with system := c.system.closeFd c.fd } : Connected).system.entry c.fd =
    c.system.entry c.fd from rfl, hup.registered.1] at hentry
  cases hentry

lemma Up.keeps_iff_staysUp (hup : c.Up) (e : Readiness) : KeepsProtocol k c e ↔ StaysUp e := by
  constructor
  · intro hkeeps
    cases e with
    | readable a =>
      by_contra hdown
      refine hup.not_keepsProtocol_of_readable (fun bytes hread => ?_) hkeeps
      by_contra hne
      exact hdown ⟨bytes, hread, hne⟩
    | writable a => trivial
    | error => exact hup.not_keepsProtocol_error hkeeps
  · intro hstays
    have hnot : ¬ Ends e ∧ ¬ Interrupted e := by
      cases e with
      | readable a =>
        obtain ⟨bytes, hread, hne⟩ := hstays
        simp [Ends, Interrupted, hread, hne]
      | writable a => exact ⟨id, id⟩
      | error => exact hstays.elim
    refine ⟨fun _ hends => absurd hends hnot.1, fun _ hinter => absurd hinter hnot.2,
      fun _ _ _ c' hstep => (hup.goesOn hstays hstep).2, fun hout => absurd hup.registered hout⟩

end Activations

/-! ## A connection that has been accepted -/

/-- A connection made by `tcp_connection_new`, its add request handled by its loop. -/
def accepted (connectedFd : ℤ) (eventLoop self : ℕ) (fresh₁ fresh₂ : ℕ → UInt8) (heap : Heap)
    (served : ℤ → Bool) : Call Connected := do
  let h := Hosted.new connectedFd eventLoop self fresh₁ fresh₂ heap
  let s ← h.system.drain served
  pure { h with system := s, fd := connectedFd, runs := [] }

/-- The map of a new loop can be given a slot for every descriptor below `2 ^ 30`. -/
lemma mapMakeSpace_returns {fd : ℤ} (h : 0 ≤ fd) (hlt : fd < 2 ^ 30) :
    ∃ map, mapMakeSpace (fun _ => true) mapInit fd = .returned (some map) := by
  obtain ⟨q, hq, -⟩ := doubleTurn_returns hlt (rfl : 5 + 25 = 30)
  have hloop : Outcome.loop (doubleTurn fd) maxDoublings 32 = .returned (2 ^ q) :=
    Outcome.loop_of_le (by decide) hq
  have hle : mapInit.nentries ≤ fd := h
  have hempty : ¬ mapInit.nentries ≠ 0 := by decide
  unfold mapMakeSpace
  rw [if_pos hle, if_neg hempty, hloop]
  exact ⟨_, rfl⟩

/-- An add request for a descriptor that is free in the map and in the dispatcher. -/
lemma handlePendingAdd_returns {env : Surroundings} {loop : EventLoop} {channel : ChannelPtr}
    {map : ChannelMap} {d : Dispatcher} (hfd : 0 ≤ (env.channels channel).fd)
    (hmap : mapFor env loop.channelMap (env.channels channel).fd = .returned (some map))
    (hfree : map.entry (env.channels channel).fd = none)
    (hadd : loop.eventDispatcher.add env.isOpen (env.channels channel) = .returned d) :
    handlePendingAdd env loop channel = .returned
      { loop with
        channelMap := map.set (env.channels channel).fd (some channel)
        eventDispatcher := d } := by
  simp only [handlePendingAdd]
  rw [if_neg (not_lt.2 hfd), hmap, Outcome.returned_bind]
  simp only [hfree, hadd, if_true]
  rfl

lemma accepted_returns {connectedFd : ℤ} (hfd : 0 ≤ connectedFd) (hlt : connectedFd < 2 ^ 30)
    (eventLoop self : ℕ) (fresh₁ fresh₂ : ℕ → UInt8) (heap : Heap) :
    ∃ c, accepted connectedFd eventLoop self fresh₁ fresh₂ heap (fun _ => true) =
      .returned c := by
  obtain ⟨map, hmap⟩ := mapMakeSpace_returns hfd hlt
  have hfree : map.entry connectedFd = none := by
    rw [(mapMakeSpace_spec hmap).1]
    exact ChannelMap.entry_of_nentries_le hfd
  let s := (Hosted.new connectedFd eventLoop self fresh₁ fresh₂ heap).system
  have hmapFor : mapFor (s.surroundings fun _ => true) mapInit connectedFd =
      .returned (some map) := (if_pos hfd).trans hmap
  have hopen : s.isOpen connectedFd = true := by
    show Function.update (fun _ => false) connectedFd true connectedFd = true
    exact Function.update_self _ _ _
  have hadd : ∃ d, s.loop.eventDispatcher.add s.isOpen (s.channels 0) = .returned d := by
    have hepoll : epollAdd s.isOpen (fun _ => none) (s.channels 0) =
        .returned (Function.update (fun _ => none) _ _) := if_pos ⟨hopen, rfl⟩
    show ∃ d, (epollAdd s.isOpen (fun _ => none) (s.channels 0) >>= _) = _
    rw [hepoll]
    exact ⟨_, rfl⟩
  obtain ⟨d, hadd⟩ := hadd
  have hloop : handlePendingAdd (s.surroundings fun _ => true) s.loop 0 = .returned _ :=
    handlePendingAdd_returns hfd hmapFor hfree hadd
  have helement : ∃ s', s.handleElement (fun _ => true) ⟨.add, 0⟩ = .returned s' := by
    show ∃ s', (handlePendingAdd (s.surroundings fun _ => true) s.loop 0 >>= _) = _
    rw [hloop]
    exact ⟨_, rfl⟩
  obtain ⟨s₁, hstep⟩ := helement
  have hdrain := (drain_singleton (rfl : s.loop.pending = [⟨.add, 0⟩])).2 ⟨s₁, hstep, rfl⟩
  show ∃ c, (s.drain (fun _ => true) >>= _) = _
  rw [hdrain]
  exact ⟨_, rfl⟩

lemma up_of_accepted {connectedFd : ℤ} {eventLoop self : ℕ} {fresh₁ fresh₂ : ℕ → UInt8}
    {heap : Heap} {served : ℤ → Bool} {c : Connected} (hfd : 0 ≤ connectedFd)
    (hserved : ∀ n, served n = true)
    (h : accepted connectedFd eventLoop self fresh₁ fresh₂ heap served = .returned c) : c.Up := by
  obtain ⟨s, hdrain, hdone⟩ := Outcome.bind_eq_returned.1 h
  cases hdone
  obtain ⟨s₁, hstep, hs⟩ := (drain_singleton rfl).1 hdrain
  obtain ⟨hsame, -, heffect⟩ := System.handleElement_cases hstep
  rw [hs]
  have hchannels : s₁.channels = Function.update (fun _ => ⟨-1, 0#32, none, none, .eventLoop 0⟩) 0
      (System.connectionChannel connectedFd self) := hsame.channels
  have hentry : s₁.entry connectedFd = some 0 := by
    cases heffect with
    | kept _ _ refused =>
      rcases refused rfl with hneg | ⟨n, hn⟩ | htaken
      · have hneg' : connectedFd < 0 := hneg
        omega
      · rw [hserved n] at hn
        cases hn
      · exact absurd (ChannelMap.entry_of_nentries_le hfd) htaken
    | entered _ _ _ entry =>
      rw [entry]
      exact Function.update_self _ _ _
    | removed type | updated type => cases type
  have hopen : s₁.isOpen connectedFd = true := by
    rw [hsame.isOpen]
    exact Function.update_self _ _ _
  refine ⟨⟨hentry, hopen⟩, ?_, ?_, ?_, rfl⟩
  · show (s₁.channels 0).fd = connectedFd
    rw [hchannels]
    rfl
  · show (s₁.channels 0).eventReadCallback = some .handleRead
    rw [hchannels]
    rfl
  · show (s₁.channels 0).eventWriteCallback = some .handleWrite
    rw [hchannels]
    rfl

/-- Connection 0 is accepted on descriptor 5. -/
def connection : Call Connected :=
  accepted 5 0 0 (fun _ => 0) (fun _ => 0) ⟨fun _ _ => 0, 0, 0⟩ fun _ => true

lemma connection_up : ∃ c, connection = .returned c ∧ c.Up := by
  obtain ⟨c, hc⟩ := @accepted_returns 5 (by decide) (by decide) 0 0 (fun _ => 0) (fun _ => 0)
    ⟨fun _ _ => 0, 0, 0⟩
  exact ⟨c, hc, up_of_accepted (by decide) (fun _ => rfl) hc⟩

/-- The callbacks of a server that leaves the bytes it gets in the input buffer. -/
def waitingCallbacks : Callbacks := ⟨none, none, some httpOnConnectionClosed⟩

def answersOf (read : ReadvResult) : EventAnswers := ⟨read, .wrote 0, fun _ => none, fun _ => true⟩

/-- A connection keeps to the protocol exactly as long as every read event brings bytes and the
dispatcher reports no error for its descriptor. -/
theorem keepsProtocol_iff (k : Callbacks) {c : Connected} (hup : c.Up) (events : List Readiness) :
    Outcome.Throughout (step k) (KeepsProtocol k) c events ↔
      Outcome.Throughout (step k) (fun _ e => StaysUp e) c events := by
  refine Outcome.throughout_iff (fun c e (hup : c.Up) => hup.keeps_iff_staysUp e) ?_ hup
  intro c e c' hup hkeeps hstep
  exact (hup.goesOn ((hup.keeps_iff_staysUp e).1 hkeeps) hstep).1

theorem keepsProtocol_iff_bytes :
    ∃ c, connection = .returned c ∧
      Outcome.Throughout (step waitingCallbacks) (KeepsProtocol waitingCallbacks) c
        [.readable (answersOf (.ok [71, 69, 84])), .writable (answersOf (.ok []))] := by
  obtain ⟨c, hc, hup⟩ := connection_up
  refine ⟨c, hc, (keepsProtocol_iff waitingCallbacks hup _).2 ?_⟩
  exact ⟨⟨_, rfl, by simp⟩, fun _ _ => ⟨trivial, fun _ _ => trivial⟩⟩

/-- After an end of stream the descriptor stays open, a read with `EAGAIN` ends the connection,
and the error branch of `epoll_dispatch` runs no callback. -/
theorem not_keepsProtocol_ended :
    ∃ c, connection = .returned c ∧
      ∀ e ∈ [Readiness.readable (answersOf (.ok [])),
          .readable (answersOf (.error .EWOULDBLOCK)), .error],
        ¬ Outcome.Throughout (step waitingCallbacks) (KeepsProtocol waitingCallbacks) c [e] := by
  obtain ⟨c, hc, hup⟩ := connection_up
  refine ⟨c, hc, fun e he hkeeps => ?_⟩
  have hstays := (hup.keeps_iff_staysUp e).1 hkeeps.1
  simp only [List.mem_cons, List.not_mem_nil, or_false] at he
  rcases he with rfl | rfl | rfl
  · obtain ⟨bytes, hread, hne⟩ := hstays
    cases hread
    exact hne rfl
  · obtain ⟨bytes, hread, -⟩ := hstays
    cases hread
  · exact hstays

end Connected

end Yolanda
