import CPYuZe.Yolanda.PendingList

/-!
# Waking the owner up

The steps of the threads of one event loop, one lock operation, one store into the pending list
and one byte on the socket pair at a time (`LoopStep`).  The other threads put requests into the
list and write a byte each once they have given the lock back; the owner waits for events,
reads one byte for each activation of its wake-up channel, runs callbacks that may put requests
of their own into the list, and drains it.

Bytes and elements are not matched: a drain takes elements whose bytes are still to be written,
and bytes may be left over from elements that are gone.  What matters is that the owner goes to
wait right behind a drain.  From then on every element it has not seen comes from a thread that
has yet to write its byte, or has written it, and nobody reads (`Covered`).
-/

namespace Yolanda

/-- Where a thread other than the owner is in `event_loop_do_channel_event`. -/
inductive CallerPc
  | idle
  /-- It has called the function. -/
  | locking (element : ChannelElement)
  /-- It holds the lock. -/
  | locked (element : ChannelElement)
  /-- It holds the lock, and its request is in the list. -/
  | enqueued
  /-- It has given the lock back and is to write its byte. -/
  | unlocked

/-- Where code of the owner runs between two calls of the event loop's functions. -/
inductive Place
  /-- Outside `event_loop_run`. -/
  | outside
  /-- In the round of a dispatch, with the wake-up channel still to be activated or not. -/
  | dispatching (wakeup : Bool)
  /-- At the head of the loop of `event_loop_run`, whose flag `quit` is never set. -/
  | aboutToBlock
  deriving DecidableEq

/-- Where the owner is.  A call goes on at the place it was made from, and the drain of a
round at the head of the loop. -/
inductive OwnerPc
  | inside (place : Place)
  /-- It has called `event_loop_do_channel_event`. -/
  | locking (place : Place) (element : ChannelElement)
  /-- It holds the lock to put the request into the list. -/
  | locked (place : Place) (element : ChannelElement)
  /-- It holds the lock, and the request is in the list. -/
  | enqueued (place : Place)
  /-- It has called `event_loop_handle_pending_channel`. -/
  | draining (place : Place)
  /-- It holds the lock to drain the list. -/
  | drainLocked (place : Place)
  /-- It holds the lock, and the list is drained. -/
  | drained (place : Place)
  /-- It is in `epoll_wait`. -/
  | blocked
  deriving DecidableEq

structure LoopThreads where
  loop : LinkedLoop
  /-- The thread that holds the lock. -/
  mutex : Option ℕ
  /-- The bytes of the socket pair that have not been read. -/
  unread : ℕ
  caller : ℕ → CallerPc
  ownerPc : OwnerPc

namespace LoopThreads

def setCaller (s : LoopThreads) (thread : ℕ) (pc : CallerPc) : LoopThreads :=
  { s with caller := Function.update s.caller thread pc }

/-- A loop nobody uses yet. -/
def init (channelMap : ChannelMap) (eventDispatcher : Dispatcher) : LoopThreads where
  loop := (SharedLoop.init channelMap eventDispatcher).loop
  mutex := none
  unread := 0
  caller _ := .idle
  ownerPc := .inside .outside

end LoopThreads

/-- One step of one thread.  Writing and reading a byte succeed, and `epoll_wait` reports the
wake-up channel only if a byte is there to be read. -/
inductive LoopStep (owner : ℕ) : LoopThreads → LoopThreads → Prop
  | call {s : LoopThreads} {thread : ℕ} (element : ChannelElement) :
      thread ≠ owner → s.caller thread = .idle →
      LoopStep owner s (s.setCaller thread (.locking element))
  | lock {s : LoopThreads} {thread : ℕ} {element : ChannelElement} :
      s.caller thread = .locking element → s.mutex = none →
      LoopStep owner s { s.setCaller thread (.locked element) with mutex := some thread }
  | enqueue {s : LoopThreads} {thread : ℕ} {element : ChannelElement} {loop : LinkedLoop} :
      s.caller thread = .locked element → s.loop.doChannelEvent element = .returned loop →
      LoopStep owner s { s.setCaller thread .enqueued with loop := loop }
  | unlock {s : LoopThreads} {thread : ℕ} :
      s.caller thread = .enqueued →
      LoopStep owner s { s.setCaller thread .unlocked with mutex := none }
  | wakeup {s : LoopThreads} {thread : ℕ} :
      s.caller thread = .unlocked →
      LoopStep owner s { s.setCaller thread .idle with unread := s.unread + 1 }
  | ownerCall {s : LoopThreads} {place : Place} (element : ChannelElement) :
      s.ownerPc = .inside place → place ≠ .aboutToBlock →
      LoopStep owner s { s with ownerPc := .locking place element }
  | ownerLock {s : LoopThreads} {place : Place} {element : ChannelElement} :
      s.ownerPc = .locking place element → s.mutex = none →
      LoopStep owner s { s with ownerPc := .locked place element, mutex := some owner }
  | ownerEnqueue {s : LoopThreads} {place : Place} {element : ChannelElement}
      {loop : LinkedLoop} :
      s.ownerPc = .locked place element → s.loop.doChannelEvent element = .returned loop →
      LoopStep owner s { s with ownerPc := .enqueued place, loop := loop }
  | ownerUnlock {s : LoopThreads} {place : Place} :
      s.ownerPc = .enqueued place →
      LoopStep owner s { s with ownerPc := .draining place, mutex := none }
  | drainLock {s : LoopThreads} {place : Place} :
      s.ownerPc = .draining place → s.mutex = none →
      LoopStep owner s { s with ownerPc := .drainLocked place, mutex := some owner }
  | drain {s : LoopThreads} {place : Place} {env : Surroundings} {budget : ℕ}
      {loop : LinkedLoop} :
      s.ownerPc = .drainLocked place → s.loop.handlePendingChannel env budget = .returned loop →
      LoopStep owner s { s with ownerPc := .drained place, loop := loop }
  | drainUnlock {s : LoopThreads} {place : Place} :
      s.ownerPc = .drained place →
      LoopStep owner s { s with ownerPc := .inside place, mutex := none }
  /-- `event_loop_run` is called. -/
  | run {s : LoopThreads} :
      s.ownerPc = .inside .outside →
      LoopStep owner s { s with ownerPc := .inside .aboutToBlock }
  | wait {s : LoopThreads} :
      s.ownerPc = .inside .aboutToBlock → LoopStep owner s { s with ownerPc := .blocked }
  | report {s : LoopThreads} (wakeup : Bool) :
      s.ownerPc = .blocked → (wakeup = true → 0 < s.unread) →
      LoopStep owner s { s with ownerPc := .inside (.dispatching wakeup) }
  | handleWakeup {s : LoopThreads} :
      s.ownerPc = .inside (.dispatching true) →
      LoopStep owner s
        { s with ownerPc := .inside (.dispatching false), unread := s.unread - 1 }
  /-- The channels reported have been activated. -/
  | roundEnd {s : LoopThreads} :
      s.ownerPc = .inside (.dispatching false) →
      LoopStep owner s { s with ownerPc := .draining .aboutToBlock }

/-! ## What covers a pending element -/

namespace LoopThreads

/-- If the list is not empty, a byte is there to be read, or a thread other than the owner has
put its request into the list and has yet to write one. -/
def Covered (owner : ℕ) (s : LoopThreads) : Prop :=
  s.loop.pendingHead ≠ none →
    0 < s.unread ∨
      ∃ thread, thread ≠ owner ∧ (s.caller thread = .enqueued ∨ s.caller thread = .unlocked)

/-- The owner has drained the list and has not read a byte or put in a request since. -/
def Settled : OwnerPc → Prop
  | .drained _ | .inside .outside | .inside .aboutToBlock | .blocked => True
  | .inside (.dispatching _) | .locking _ _ | .locked _ _ | .enqueued _ | .draining _
  | .drainLocked _ => False

/-- The owner is not one of the other threads, and it misses nothing. -/
structure Awake (owner : ℕ) (s : LoopThreads) : Prop where
  ownerIdle : s.caller owner = .idle
  covered : Settled s.ownerPc → s.Covered owner

section Callers

variable {owner thread : ℕ} {s : LoopThreads} {pc : CallerPc}

lemma setCaller_of_ne (s : LoopThreads) (pc : CallerPc) {other : ℕ} (h : other ≠ thread) :
    (s.setCaller thread pc).caller other = s.caller other :=
  Function.update_of_ne h _ _

lemma setCaller_self (s : LoopThreads) (pc : CallerPc) :
    (s.setCaller thread pc).caller thread = pc :=
  Function.update_self _ _ _

/-- A thread that is in a call is not the owner. -/
lemma Awake.ne_owner (h : s.Awake owner) (hpc : s.caller thread ≠ .idle) : thread ≠ owner := by
  rintro rfl
  exact hpc h.ownerIdle

/-- A step of a thread that was not in the list yet leaves the threads in it as they are. -/
lemma Covered.setCaller (h : s.Covered owner)
    (hpc : s.caller thread ≠ .enqueued ∧ s.caller thread ≠ .unlocked) :
    (s.setCaller thread pc).Covered owner := by
  intro hne
  rcases h hne with hunread | ⟨other, hforeign, hother⟩
  · exact .inl hunread
  · have hdiff : other ≠ thread := by
      rintro rfl
      exact hother.elim hpc.1 hpc.2
    refine .inr ⟨other, hforeign, ?_⟩
    rw [setCaller_of_ne s pc hdiff]
    exact hother

end Callers

end LoopThreads

lemma LinkedLoop.handlePendingChannel_head {l l' : LinkedLoop} {env : Surroundings} {budget : ℕ}
    (h : l.handlePendingChannel env budget = .returned l') : l'.pendingHead = none := by
  obtain ⟨l₁, -, hlast⟩ := Outcome.bind_eq_returned.1 h
  rw [← Outcome.returned.inj hlast]

section Steps

variable {owner : ℕ} {s s' : LoopThreads}

open LoopThreads in
/-- One step keeps the owner from missing an element: a thread that puts one in is about to
write, a thread that writes leaves a byte, and the owner reads and puts in only where it drains
before it waits. -/
lemma LoopStep.awake (h : s.Awake owner) (hstep : LoopStep owner s s') : s'.Awake owner := by
  have hidle := h.ownerIdle
  have hcaller : ∀ thread pc, thread ≠ owner → (s.setCaller thread pc).caller owner = .idle :=
    fun thread pc hne => (setCaller_of_ne s pc hne.symm).trans hidle
  cases hstep with
  | @call thread element hother hfree =>
    refine ⟨hcaller _ _ hother, fun hsettled => ?_⟩
    exact (h.covered hsettled).setCaller (by simp [hfree])
  | @lock thread element hlocking hfree =>
    refine ⟨hcaller _ _ (h.ne_owner (by simp [hlocking])), fun hsettled => ?_⟩
    exact (h.covered hsettled).setCaller (by simp [hlocking])
  | @enqueue thread element loop hlocked henqueue =>
    have hother : thread ≠ owner := h.ne_owner (by simp [hlocked])
    exact ⟨hcaller _ _ hother, fun _ _ => .inr ⟨thread, hother, .inl (setCaller_self s _)⟩⟩
  | @unlock thread henqueued =>
    have hother : thread ≠ owner := h.ne_owner (by simp [henqueued])
    exact ⟨hcaller _ _ hother, fun _ _ => .inr ⟨thread, hother, .inr (setCaller_self s _)⟩⟩
  | @wakeup thread hunlocked =>
    have hother : thread ≠ owner := h.ne_owner (by simp [hunlocked])
    exact ⟨hcaller _ _ hother, fun _ _ => .inl (Nat.succ_pos _)⟩
  | drain hlocked hdrain =>
    refine ⟨hidle, fun _ hne => ?_⟩
    exact absurd (LinkedLoop.handlePendingChannel_head hdrain) hne
  | drainUnlock hdrained => exact ⟨hidle, fun _ => h.covered (by rw [hdrained]; trivial)⟩
  | run houtside => exact ⟨hidle, fun _ => h.covered (by rw [houtside]; trivial)⟩
  | wait habout => exact ⟨hidle, fun _ => h.covered (by rw [habout]; trivial)⟩
  | ownerCall _ _ _ | ownerLock _ _ | ownerEnqueue _ _ | ownerUnlock _ | drainLock _ _
  | report _ _ _ | handleWakeup _ | roundEnd _ => exact ⟨hidle, fun hsettled => hsettled.elim⟩

end Steps

/-- No wake-up is lost: whenever the owner is about to wait or waits, and the list is not
empty, there is a byte to be read, or another thread has put its request into the list and has
yet to write its byte. -/
theorem no_lost_wakeup (owner : ℕ) (channelMap : ChannelMap) (eventDispatcher : Dispatcher)
    {s : LoopThreads}
    (h : Relation.ReflTransGen (LoopStep owner) (LoopThreads.init channelMap eventDispatcher) s)
    (hwaits : s.ownerPc = .inside .aboutToBlock ∨ s.ownerPc = .blocked)
    (hne : s.loop.pendingHead ≠ none) :
    0 < s.unread ∨
      ∃ thread, thread ≠ owner ∧ (s.caller thread = .enqueued ∨ s.caller thread = .unlocked) := by
  have hinit : (LoopThreads.init channelMap eventDispatcher).Awake owner :=
    ⟨rfl, fun _ hsome => absurd rfl hsome⟩
  have hawake := Transition.invariant (LoopThreads.Awake owner) hinit
    (fun _ _ ha hstep => hstep.awake ha) h
  refine hawake.covered ?_ hne
  rcases hwaits with hpc | hpc <;> rw [hpc] <;> trivial

/-- The owner waits, and thread 1 has put a request into the list and still holds the lock. -/
theorem no_lost_wakeup_enqueued :
    ∃ s : LoopThreads, s.ownerPc = .blocked ∧ s.loop.pendingHead ≠ none ∧
      (0 < s.unread ∨
        ∃ thread, thread ≠ 0 ∧ (s.caller thread = .enqueued ∨ s.caller thread = .unlocked)) := by
  have hinit : Relation.ReflTransGen (LoopStep 0)
      (LoopThreads.init mapInit (.epoll fun _ => none)) _ := .refl
  have hrun := hinit.tail (@LoopStep.run 0 _ rfl)
  have hwait := hrun.tail (@LoopStep.wait 0 _ rfl)
  have hcall := hwait.tail (@LoopStep.call 0 _ 1 ⟨.add, 0⟩ (by decide) rfl)
  have hlock := hcall.tail (@LoopStep.lock 0 _ 1 ⟨.add, 0⟩ rfl rfl)
  have henqueue := hlock.tail (@LoopStep.enqueue 0 _ 1 ⟨.add, 0⟩ _ rfl rfl)
  exact ⟨_, rfl, Option.some_ne_none _,
    no_lost_wakeup 0 mapInit (.epoll fun _ => none) henqueue (.inr rfl) (Option.some_ne_none _)⟩

end Yolanda
