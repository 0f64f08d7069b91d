import CPYuZe.Yolanda.LiveCallbacks
import CPYuZe.Yolanda.OutputStream

/-!
# Write interest

Four pieces of state are meant to go together: bytes wait in the output buffer, the channel has
`EVENT_WRITE`, an update request is on its way to the event loop of the connection, and after
the next drain the dispatcher watches the descriptor for writing.  `Hosted` puts a connection
and its event loop side by side; a request that the connection sends to its loop is queued
there, and one that it sends anywhere else is not.

The requests of `channel_write_event_enable` and `channel_write_event_disable` go to whatever
`channel->data` points to.  For a channel that `tcp_connection_new` has made this is the
connection, so no such request ever reaches a loop, and the call that makes it does not come
back.  The four pieces therefore stay together only as long as no request is needed:
`write_interest_iff`.
-/

namespace Yolanda

/-- A connection and the event loop it belongs to; `channel` is the address of its channel. -/
structure Hosted where
  world : World
  system : System
  channel : ChannelPtr

namespace Hosted

/-- A new connection, its add request in the pending list of its loop. -/
def new (connectedFd : ℤ) (eventLoop self : ℕ) (fresh₁ fresh₂ : ℕ → UInt8) (heap : Heap) :
    Hosted :=
  let world := tcpConnectionNew connectedFd eventLoop none self fresh₁ fresh₂ heap
  ⟨world, (System.init (.epoll fun _ => none)).accept world.conn.channel, 0⟩

/-- The update requests a call has added to the trace that went to the loop itself. -/
def updatesSince (h : Hosted) (w : World) : List UpdateRequest :=
  (w.trace.drop h.world.trace.length).filterMap fun
    | .update u => if u.eventLoop = .eventLoop w.conn.eventLoop then some u else none
    | _ => none

/-- The loop sees the channel as the call has left it, and queues the requests sent to it. -/
def deliver (h : Hosted) (w : World) : Hosted :=
  { h with
    world := w
    system := (h.updatesSince w).foldl (fun s _ => s.enqueue ⟨.update, h.channel⟩)
      { h.system with
        channels := Function.update h.system.channels h.channel w.conn.channel } }

end Hosted

inductive HostedOp
  | conn (op : ConnOp)
  | drain (served : ℤ → Bool)

def hostedStep (h : Hosted) : HostedOp → Call Hosted
  | .conn op => do
    let w ← connStep h.world op
    pure (h.deliver w)
  | .drain served => do
    let s ← h.system.drain served
    pure { h with system := s }

/-- The dispatcher watches the descriptor for writing. -/
def WatchesWrite (s : System) (fd : ℤ) : Prop :=
  ∃ interest mask, s.loop.eventDispatcher = .epoll interest ∧ interest fd = some mask ∧
    mask &&& EPOLLOUT ≠ 0#32

/-- The flag of the channel follows the output buffer, every update request went to the loop of
the connection, and a drain makes the dispatcher follow too. -/
structure Follows (h : Hosted) : Prop where
  flag : channelWriteEventIsEnabled h.world.conn.channel = true ↔ h.world.unsent ≠ []
  addressed : ∀ u, .update u ∈ h.world.trace →
    u.eventLoop = .eventLoop h.world.conn.eventLoop
  mask : ∀ served s, h.system.drain served = .returned s →
    (WatchesWrite s h.world.conn.channel.fd ↔ h.world.unsent ≠ [])

/-- A send or a write event comes back and leaves the interest in step. -/
def FollowsAfter (h : Hosted) : HostedOp → Prop
  | .conn op => ∃ h', hostedStep h (.conn op) = .returned h' ∧ Follows h'
  | .drain _ => True

/-- The write of a send takes all of the data. -/
def TakesAll : HostedOp → Prop
  | .conn op => ∀ a, op.send = some a → ∃ n, a.k.write = .wrote n ∧ a.data.bytes.length ≤ n
  | .drain _ => True

/-! ## A loop in which nobody wants to write -/

/-- No channel has `EVENT_WRITE`, and nothing is watched for writing. -/
structure NoWriter (s : System) : Prop where
  masks : ∃ interest, s.loop.eventDispatcher = .epoll interest ∧
    ∀ fd mask, interest fd = some mask → mask &&& EPOLLOUT = 0#32
  flags : ∀ channel, channelWriteEventIsEnabled (s.channels channel) = false

lemma epollEvents_of_not_enabled {c : Channel} (h : channelWriteEventIsEnabled c = false) :
    epollEvents c &&& EPOLLOUT = 0#32 := by
  have hflag : (c.events &&& eventWrite != 0#32) = false := h
  unfold epollEvents
  rw [hflag]
  simp only [Bool.false_eq_true, if_false]
  split_ifs <;> decide

lemma NoWriter.not_watchesWrite {s : System} (h : NoWriter s) (fd : ℤ) : ¬ WatchesWrite s fd := by
  rintro ⟨interest, mask, hepoll, hmask, hbit⟩
  obtain ⟨interest', hepoll', hnone⟩ := h.masks
  rw [hepoll] at hepoll'
  cases hepoll'
  exact hbit (hnone fd mask hmask)

lemma NoWriter.handleElement {s s' : System} {served : ℤ → Bool} {e : ChannelElement}
    (h : NoWriter s) (hstep : s.handleElement served e = .returned s') : NoWriter s' := by
  obtain ⟨hsame, -, heffect⟩ := System.handleElement_cases hstep
  obtain ⟨interest, hepoll, hnone⟩ := h.masks
  refine ⟨?_, hsame.channels ▸ h.flags⟩
  -- the entry of a channel gets the events of a channel, and none of them has the flag
  have hset : ∀ fd (c : Channel), channelWriteEventIsEnabled c = false → ∀ fd' mask,
      Function.update interest fd (some (epollEvents c)) fd' = some mask →
        mask &&& EPOLLOUT = 0#32 := by
    intro fd c hc fd' mask hmask
    rw [Function.update_apply] at hmask
    split_ifs at hmask
    · cases hmask
      exact epollEvents_of_not_enabled hc
    · exact hnone fd' mask hmask
  cases heffect with
  | kept _ dispatcher => exact ⟨interest, dispatcher.trans hepoll, hnone⟩
  | entered _ _ _ _ dispatcher =>
    rw [hepoll] at dispatcher
    exact ⟨_, (Dispatcher.epoll_add_cases dispatcher).2.2, hset _ _ (h.flags e.channel)⟩
  | removed _ channel2 _ _ dispatcher =>
    rw [hepoll] at dispatcher
    refine ⟨_, (Dispatcher.epoll_del_cases dispatcher).2, fun fd mask hmask => ?_⟩
    rw [Function.update_apply] at hmask
    split_ifs at hmask
    exact hnone fd mask hmask
  | updated _ _ _ dispatcher =>
    rw [hepoll] at dispatcher
    exact ⟨_, (Dispatcher.epoll_update_cases dispatcher).2, hset _ _ (h.flags e.channel)⟩

lemma NoWriter.drain {s s' : System} {served : ℤ → Bool} (h : NoWriter s)
    (hdrain : s.drain served = .returned s') : NoWriter s' := by
  refine System.drain_preserves (fun s _ => NoWriter s) (fun _ _ _ _ hs hs' => hs.handleElement hs')
    ?_ h hdrain
  rintro s s' hs rfl
  exact ⟨hs.masks, hs.flags⟩

/-! ## A connection with nothing to send -/

structure Idle (h : Hosted) : Prop where
  unqueued : Unqueued h.world
  noUpdate : ∀ u, .update u ∉ h.world.trace
  noWriter : NoWriter h.system

lemma Idle.follows {h : Hosted} (hidle : Idle h) : Follows h where
  flag := by simp [hidle.unqueued.flag, hidle.unqueued.unsent]
  addressed := fun u hu => absurd hu (hidle.noUpdate u)
  mask := by
    intro served s hdrain
    have hnot := (hidle.noWriter.drain hdrain).not_watchesWrite h.world.conn.channel.fd
    simp [hnot, hidle.unqueued.unsent]

/-- A call that adds no update request and leaves the connection as it is. -/
lemma Idle.deliver {h : Hosted} (hidle : Idle h) {w : World} (hconn : w.conn = h.world.conn)
    {events : List Event} (htrace : w.trace = h.world.trace ++ events)
    (hevents : ∀ u, .update u ∉ events) : Idle (h.deliver w) := by
  have hnone : h.updatesSince w = [] := by
    unfold Hosted.updatesSince
    rw [htrace, List.drop_left, List.filterMap_eq_nil_iff]
    intro e he
    cases e with
    | update u => exact absurd he (hevents u)
    | _ => rfl
  have hsystem : (h.deliver w).system = { h.system with
      channels := Function.update h.system.channels h.channel w.conn.channel } := by
    unfold Hosted.deliver
    rw [hnone]
    rfl
  have hworld : (h.deliver w).world = w := rfl
  refine ⟨?_, ?_, ?_⟩
  · rw [hworld]
    exact hidle.unqueued.of_conn (congrArg _ hconn) (congrArg _ hconn)
  · rw [hworld, htrace]
    intro u hu
    rcases List.mem_append.1 hu with hu | hu
    · exact hidle.noUpdate u hu
    · exact hevents u hu
  · rw [hsystem, hconn]
    refine ⟨hidle.noWriter.masks, fun channel => ?_⟩
    by_cases hc : channel = h.channel
    · subst hc
      simpa using hidle.unqueued.flag
    · simpa [hc] using hidle.noWriter.flags channel

/-- A call that comes back leaves the connection idle. -/
lemma Idle.conn {h : Hosted} (hidle : Idle h) {op : ConnOp} {w : World}
    (hstep : connStep h.world op = .returned w) : Idle (h.deliver w) := by
  rcases hidle.unqueued.connStep_cases hstep with ⟨a, -, -, rfl⟩ | ⟨-, ⟨e, rfl⟩ | rfl⟩
  · have htrace : (h.world.sent a.data.bytes).trace =
        h.world.trace ++ [.passed a.data.bytes, .accepted a.data.bytes] := by
      simp
    exact hidle.deliver rfl htrace (by simp)
  · exact hidle.deliver rfl rfl (by simp)
  · exact hidle.deliver rfl rfl (by simp)

lemma Idle.followsAfter_iff {h : Hosted} (hidle : Idle h) (op : HostedOp) :
    FollowsAfter h op ↔ TakesAll op := by
  cases op with
  | drain served => exact Iff.rfl
  | conn op =>
    have hreturns : (∃ w, connStep h.world op = .returned w) ↔ TakesAll (.conn op) :=
      hidle.unqueued.connStep_returns_iff
    rw [← hreturns]
    constructor
    · rintro ⟨h', hstep, -⟩
      obtain ⟨w, hw, -⟩ := Outcome.bind_eq_returned.1 hstep
      exact ⟨w, hw⟩
    · rintro ⟨w, hw⟩
      exact ⟨h.deliver w, by simp [hostedStep, hw], (hidle.conn hw).follows⟩

lemma Idle.step {h h' : Hosted} (hidle : Idle h) {op : HostedOp}
    (hstep : hostedStep h op = .returned h') : Idle h' := by
  cases op with
  | drain served =>
    obtain ⟨s, hs, hdone⟩ := Outcome.bind_eq_returned.1 hstep
    cases hdone
    exact ⟨hidle.unqueued, hidle.noUpdate, hidle.noWriter.drain hs⟩
  | conn op =>
    obtain ⟨w, hw, hdone⟩ := Outcome.bind_eq_returned.1 hstep
    cases hdone
    exact hidle.conn hw

lemma idle_new (connectedFd : ℤ) (eventLoop self : ℕ) (fresh₁ fresh₂ : ℕ → UInt8) (heap : Heap) :
    Idle (Hosted.new connectedFd eventLoop self fresh₁ fresh₂ heap) := by
  have hread : (eventRead &&& eventWrite != 0#32) = false := by decide
  refine ⟨tcpConnectionNew_unqueued connectedFd eventLoop self fresh₁ fresh₂ heap, ?_, ?_, ?_⟩
  · simp [Hosted.new, tcpConnectionNew]
  · exact ⟨fun _ => none, rfl, by simp⟩
  · intro channel
    by_cases hc : channel = 0
    · subst hc
      exact hread
    · simp only [Hosted.new, System.accept, System.enqueue, System.init, Function.update_of_ne hc]
      rfl

/-- The interest of a connection that `tcp_connection_new` has made follows its output buffer
through a run exactly when every direct write takes all of the data. -/
theorem write_interest_iff (connectedFd : ℤ) (eventLoop self : ℕ) (fresh₁ fresh₂ : ℕ → UInt8)
    (heap : Heap) (ops : List HostedOp) :
    Outcome.Throughout hostedStep FollowsAfter
        (Hosted.new connectedFd eventLoop self fresh₁ fresh₂ heap) ops ↔
      Outcome.Throughout hostedStep (fun _ op => TakesAll op)
        (Hosted.new connectedFd eventLoop self fresh₁ fresh₂ heap) ops :=
  Outcome.throughout_iff (fun _ op hidle => hidle.followsAfter_iff op)
    (fun _ _ _ hidle _ hstep => hidle.step hstep)
    (idle_new connectedFd eventLoop self fresh₁ fresh₂ heap)

/-- Three bytes are sent and the socket takes one of them. -/
def sendPartly : HostedOp :=
  .conn (.sendData 0 threeBytes ⟨.wrote 1, fun _ => some fun _ => 0⟩)

/-- After a partial write the connection itself is taken for the event loop. -/
theorem write_interest_lost_after_partial_write :
    ¬ ∀ (connectedFd : ℤ) (eventLoop self : ℕ) (fresh₁ fresh₂ : ℕ → UInt8) (heap : Heap)
      (ops : List HostedOp), Outcome.Throughout hostedStep FollowsAfter
        (Hosted.new connectedFd eventLoop self fresh₁ fresh₂ heap) ops := by
  intro h
  have hidle := idle_new 5 0 0 (fun _ => 0) (fun _ => 0) ⟨fun _ _ => 0, 0, 0⟩
  have hfollows := (h 5 0 0 (fun _ => 0) (fun _ => 0) ⟨fun _ _ => 0, 0, 0⟩ [sendPartly]).1
  obtain ⟨n, hwrite, hle⟩ := (hidle.followsAfter_iff sendPartly).1 hfollows _ rfl
  cases hwrite
  exact absurd hle (by decide)

end Yolanda
