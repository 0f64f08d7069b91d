import CPYuZe.Yolanda.EventLoop

/-!
# Dispatch rounds

A round takes a ready set from the kernel and works through it while the callbacks it runs
change the very records it reads.  The model cuts the round into the steps between two such
changes.  `System` is an event loop with what surrounds it, and `todo` is what is left of the
round: the events of `epoll_wait` still to be looked at, the place `poll_dispatch` has reached
in its array, and the activations the event at hand asks for.  `next` does the first of these.
Whatever a callback does (it removes its own connection, it drains requests of other threads,
it accepts a connection) happens as steps of its own before the next `next`, and so does
whatever another thread does meanwhile, so a run of `step` is a history of the loop with every
effect that callbacks and threads may have.

`Possible` says what the kernel and the threads can do: the kernel gives out closed
descriptors only, `epoll_wait` reports each descriptor at most once and only if it watches it,
and a request is about a channel that has been created.  Every channel is added once, when its
descriptor is new: this is what `tcp_connection_new`, `tcp_server_start` and
`event_loop_init_with_name` do.

`history` has the newest entry first and is read by properties only.
-/

namespace Yolanda

/-- What is left to do in a round. -/
inductive Task
  /-- `events[i]` of `epoll_dispatch`. -/
  | event (fd : ℤ) (events : BitVec 32)
  /-- The scan of `poll_dispatch` at slot `i`, with `ready_number` as it is then. -/
  | slot (i : ℕ) (readyNumber : ℤ)
  /-- The end of a turn of that scan: `if (--ready_number <= 0) break`. -/
  | count (i : ℕ) (readyNumber : ℤ)
  /-- A call of `channel_event_activate`. -/
  | activate (fd : ℤ) (revents : BitVec 32)
  deriving DecidableEq, Repr

inductive Happening
  /-- The kernel hands out a ready set; `entry` is the channel map then, and `ready` lists the
  events for which a descriptor is reported ready. -/
  | waited (entry : ℤ → Option ChannelPtr) (ready : List (ℤ × BitVec 32))
  /-- A drain has handled a request. -/
  | handled (type : RequestType) (fd : ℤ) (channel : ChannelPtr)
  /-- The error branch of `epoll_dispatch` has closed a descriptor. -/
  | closed (fd : ℤ)
  /-- A callback of a channel is run. -/
  | called (channel : ChannelPtr) (callback : Callback)

structure System where
  loop : EventLoop
  channels : ChannelPtr → Channel
  /-- The channels created so far are those below. -/
  created : ℕ
  isOpen : ℤ → Bool
  todo : List Task
  history : List Happening

namespace System

def entry (s : System) : ℤ → Option ChannelPtr := s.loop.channelMap.entry

def fdOf (s : System) (channel : ChannelPtr) : ℤ := (s.channels channel).fd

def Watches (s : System) (fd : ℤ) : Prop := s.loop.eventDispatcher.Watches fd

instance (s : System) (fd : ℤ) : Decidable (s.Watches fd) :=
  inferInstanceAs (Decidable (s.loop.eventDispatcher.Watches fd))

def surroundings (s : System) (served : ℤ → Bool) : Surroundings :=
  ⟨s.channels, s.isOpen, served⟩

/-- A loop that has just been initialised. -/
def init (dispatcher : Dispatcher) : System where
  loop := ⟨mapInit, dispatcher, []⟩
  channels := fun _ => ⟨-1, 0#32, none, none, .eventLoop 0⟩
  created := 0
  isOpen := fun _ => false
  todo := []
  history := []

/-- One turn of the loop of `event_loop_handle_pending_channel`. -/
def handleElement (served : ℤ → Bool) (s : System) (element : ChannelElement) : Call System := do
  let loop ← Yolanda.handleElement (s.surroundings served) s.loop element
  pure { s with
    loop := loop
    history := .handled element.type (s.fdOf element.channel) element.channel :: s.history }

def drain (served : ℤ → Bool) (s : System) : Call System := do
  let s ← Outcome.run (handleElement served) s s.loop.pending
  pure { s with loop := { s.loop with pending := [] } }

/-- `channel->eventReadCallback` and `channel->eventWriteCallback`, as far as `revents` asks
for them and they are set. -/
def callbacksFor (channel : Channel) (revents : BitVec 32) : List Callback :=
  (if revents &&& eventRead != 0#32 then channel.eventReadCallback.toList else []) ++
    (if revents &&& eventWrite != 0#32 then channel.eventWriteCallback.toList else [])

def channelEventActivate (s : System) (fd : ℤ) (revents : BitVec 32) : Call System :=
  if fd < 0 then .returned s
  else if fd ≥ s.loop.channelMap.nentries then .returned s
  else
    match s.entry fd with
    | none => .faulted .nullPointer
    | some channel =>
      if fd = s.fdOf channel then
        .returned { s with
          history := ((callbacksFor (s.channels channel) revents).map (.called channel)).reverse
            ++ s.history }
      else .faulted .assertion

/-- The error branch of `epoll_dispatch`: the kernel forgets a descriptor that is closed. -/
def closeFd (s : System) (fd : ℤ) : System :=
  { s with
    isOpen := Function.update s.isOpen fd false
    loop := { s.loop with
      eventDispatcher :=
        match s.loop.eventDispatcher with
        | .epoll interest => .epoll (Function.update interest fd none)
        | .poll eventSet => .poll eventSet }
    history := .closed fd :: s.history }

end System

/-- The activations `epoll_dispatch` makes for an event that reports no error. -/
def epollActivations (events : BitVec 32) : List (BitVec 32) :=
  (if events &&& EPOLLIN != 0#32 then [eventRead] else []) ++
    (if events &&& EPOLLOUT != 0#32 then [eventWrite] else [])

/-- The activations `poll_dispatch` makes for a slot. -/
def pollActivations (revents : BitVec 16) : List (BitVec 32) :=
  (if revents &&& POLLRDNORM != 0#16 then [eventRead] else []) ++
    (if revents &&& POLLWRNORM != 0#16 then [eventWrite] else [])

/-- `poll` answers every slot in use and clears the others. -/
def pollAnswer (eventSet : ℕ → PollFd) (revents : ℕ → BitVec 16) : ℕ → PollFd :=
  fun i => { eventSet i with revents := if (eventSet i).fd < 0 then 0#16 else revents i }

/-- The number `poll` returns. -/
def readyNumber (eventSet : ℕ → PollFd) : ℕ :=
  ((List.range initPollSize).filter fun i => (eventSet i).revents != 0#16).length

/-- Every event for which the answer of `epoll_wait` reports a descriptor ready. -/
def epollReady (ready : List (ℤ × BitVec 32)) : List (ℤ × BitVec 32) :=
  ready.flatMap fun e => (epollActivations e.2).map (Prod.mk e.1)

/-- Every event for which the answer of `poll` reports a descriptor ready. -/
def pollReady (eventSet : ℕ → PollFd) : List (ℤ × BitVec 32) :=
  (List.range initPollSize).flatMap fun i =>
    (pollActivations (eventSet i).revents).map (Prod.mk (eventSet i).fd)

inductive Op
  /-- A new descriptor is given a channel, and the channel's add request is queued. -/
  | accept (channel : Channel)
  /-- A remove or update request is queued. -/
  | request (type : RequestType) (channel : ChannelPtr)
  /-- A thread changes `channel->events`. -/
  | setEvents (channel : ChannelPtr) (events : BitVec 32)
  /-- The owner runs `event_loop_handle_pending_channel`. -/
  | drain (served : ℤ → Bool)
  /-- `epoll_dispatch` begins: `epoll_wait` returns `ready`. -/
  | epollWait (ready : List (ℤ × BitVec 32))
  /-- `poll_dispatch` begins: `poll` answers slot `i` with `revents i`. -/
  | pollWait (revents : ℕ → BitVec 16)
  /-- The round goes on with the first task left. -/
  | next

namespace System

def enqueue (s : System) (element : ChannelElement) : System :=
  { s with loop := { s.loop with pending := s.loop.pending ++ [element] } }

def accept (s : System) (channel : Channel) : System :=
  { s.enqueue ⟨.add, s.created⟩ with
    channels := Function.update s.channels s.created channel
    created := s.created + 1
    isOpen := Function.update s.isOpen channel.fd true }

def setEvents (s : System) (channel : ChannelPtr) (events : BitVec 32) : System :=
  { s with
    channels :=
      Function.update s.channels channel { s.channels channel with events := events } }

def epollWait (s : System) (ready : List (ℤ × BitVec 32)) : System :=
  { s with
    todo := ready.map fun e => .event e.1 e.2
    history := .waited s.entry (epollReady ready) :: s.history }

def pollWait (s : System) (revents : ℕ → BitVec 16) : System :=
  match s.loop.eventDispatcher with
  | .epoll _ => s
  | .poll eventSet =>
    let answer := pollAnswer eventSet revents
    { s with
      loop := { s.loop with eventDispatcher := .poll answer }
      todo := if readyNumber answer ≤ 0 then [] else [.slot 0 (readyNumber answer)]
      history := .waited s.entry (pollReady answer) :: s.history }

/-- The tasks that a look at slot `i` leads to. -/
def scanSlot (s : System) (i : ℕ) (n : ℤ) : List Task :=
  match s.loop.eventDispatcher with
  | .epoll _ => []
  | .poll eventSet =>
    if i ≥ initPollSize then []
    else
      let pollfd := eventSet i
      if pollfd.fd < 0 then [.slot (i + 1) n]
      else if 0 < pollfd.revents.toInt then
        (pollActivations pollfd.revents).map (.activate pollfd.fd) ++ [.count i n]
      else [.slot (i + 1) n]

def perform (s : System) (task : Task) (rest : List Task) : Call System :=
  match task with
  | .event fd events =>
    if events &&& EPOLLERR ≠ 0#32 ∨ events &&& EPOLLHUP ≠ 0#32 then
      .returned { s.closeFd fd with todo := rest }
    else .returned { s with todo := (epollActivations events).map (.activate fd) ++ rest }
  | .slot i n => .returned { s with todo := s.scanSlot i n ++ rest }
  | .count i n =>
    .returned { s with todo := if n - 1 ≤ 0 then rest else .slot (i + 1) (n - 1) :: rest }
  | .activate fd revents => channelEventActivate { s with todo := rest } fd revents

def step (s : System) : Op → Call System
  | .accept channel => .returned (s.accept channel)
  | .request type channel => .returned (s.enqueue ⟨type, channel⟩)
  | .setEvents channel events => .returned (s.setEvents channel events)
  | .drain served => s.drain served
  | .epollWait ready => .returned (s.epollWait ready)
  | .pollWait revents => .returned (s.pollWait revents)
  | .next =>
    match s.todo with
    | [] => .returned s
    | task :: rest => s.perform task rest

/-- What the kernel and the threads can do in a state. -/
def Possible (s : System) : Op → Prop
  | .accept channel => 0 ≤ channel.fd ∧ s.isOpen channel.fd = false
  | .request type channel => type ≠ .add ∧ channel < s.created
  | .setEvents channel _ => channel < s.created
  | .drain _ => True
  | .epollWait ready =>
    s.todo = [] ∧ ready.length ≤ 128 ∧ (ready.map Prod.fst).Nodup ∧
      match s.loop.eventDispatcher with
      | .epoll interest => ∀ e ∈ ready, (interest e.1).isSome = true
      | .poll _ => False
  | .pollWait _ =>
    s.todo = [] ∧
      match s.loop.eventDispatcher with
      | .epoll _ => False
      | .poll _ => True
  | .next => True

/-- The channel `tcp_connection_new` makes for a connection. -/
def connectionChannel (fd : ℤ) (connection : ℕ) : Channel :=
  channelNew fd eventRead (some .handleRead) (some .handleWrite) (.tcpConnection connection)

/-- Connection 0 is accepted on descriptor 5, entered and reported with an event. -/
def reported (events : BitVec 32) : List Op :=
  [.accept (connectionChannel 5 0), .drain fun _ => true, .epollWait [(5, events)], .next]

lemma reported_possible (events : BitVec 32) :
    Outcome.Throughout step Possible (init (.epoll fun _ => none)) (reported events) := by
  refine (Outcome.throughout_cons_returned rfl _).2 ⟨⟨by decide, rfl⟩, ?_⟩
  refine (Outcome.throughout_cons_returned rfl _).2 ⟨trivial, ?_⟩
  refine (Outcome.throughout_cons_returned rfl _).2 ⟨⟨rfl, by simp, by simp, ?_⟩, ?_⟩
  · intro e he
    rw [List.mem_singleton.1 he]
    rfl
  · exact ⟨trivial, fun _ _ => trivial⟩

end System

end Yolanda
