import CPYuZe.Library.LinkedQueue
import CPYuZe.Library.Transition
import CPYuZe.Yolanda.EventLoop

/-!
# The pending list and the threads that share it

`pending_head` and `pending_tail` of an event loop, cell by cell (`LinkedLoop`).  A drain walks
the list and runs a handler for each element; it is the drain of `EventLoop` on the elements of
the list, whatever the cells are (`handlePendingChannel_refines`).

Any number of threads put requests into the list, each under the lock of the loop, and only the
owner of the loop drains it, also under the lock (`SharedStep`).  The order of the handlers that
have been run, followed by the order of the list, is the order in which the requests took the
lock (`pending_list_fifo`).  An element is never freed, so no two of them share an address.
-/

namespace Yolanda

open LinkedQueue

/-- A `struct event_loop` with the cells of its pending list. -/
structure LinkedLoop where
  channelMap : ChannelMap
  eventDispatcher : Dispatcher
  isHandlePending : Bool
  pendingHead : Option ℕ
  pendingTail : Option ℕ
  /-- The elements that have been allocated, by address. -/
  elements : ℕ → Option (Cell ChannelElement)
  allocated : ℕ
  /-- The elements whose handlers have been run. -/
  handled : List ChannelElement

namespace LinkedLoop

def eventLoopChannelBufferNolock (l : LinkedLoop) (element : ChannelElement) :
    Call LinkedLoop :=
  let channelElement := l.allocated
  let l :=
    { l with
      elements := Function.update l.elements channelElement (some ⟨element, none⟩)
      allocated := channelElement + 1 }
  match l.pendingHead with
  | none =>
    .returned { l with pendingHead := some channelElement, pendingTail := some channelElement }
  | some _ =>
    match l.pendingTail with
    | none => .faulted .nullPointer
    | some tail =>
      match l.elements tail with
      | none => .faulted .outOfBounds
      | some cell =>
        .returned { l with
          elements := Function.update l.elements tail
            (some { cell with next := some channelElement })
          pendingTail := some channelElement }

/-- The critical section of `event_loop_do_channel_event`. -/
def doChannelEvent (l : LinkedLoop) (element : ChannelElement) : Call LinkedLoop :=
  if l.isHandlePending = false then l.eventLoopChannelBufferNolock element
  else .faulted .assertion

/-- The loop without its list. -/
def bare (l : LinkedLoop) : EventLoop := ⟨l.channelMap, l.eventDispatcher, []⟩

/-- The loop of the drain: its condition and body. -/
def pendingTurn (env : Surroundings) (s : LinkedLoop × Option ℕ) :
    Call (Outcome.Turn (LinkedLoop × Option ℕ) LinkedLoop) :=
  match s with
  | (l, none) => .returned (.done l)
  | (l, some channelElement) =>
    match l.elements channelElement with
    | none => .faulted .outOfBounds
    | some cell => do
      let loop ← handleElement env l.bare cell.value
      pure (.next ({ l with
        channelMap := loop.channelMap
        eventDispatcher := loop.eventDispatcher
        handled := l.handled ++ [cell.value] }, cell.next))

def handlePendingChannel (env : Surroundings) (budget : ℕ) (l : LinkedLoop) :
    Call LinkedLoop := do
  let l := { l with isHandlePending := true }
  let l ← Outcome.loop (pendingTurn env) budget (l, l.pendingHead)
  pure { l with pendingHead := none, pendingTail := none, isHandlePending := false }

/-- The pointers of the loop describe a queue of the elements `as`. -/
def Lists (l : LinkedLoop) (as : List (ℕ × ChannelElement)) : Prop :=
  IsQueue l.elements l.allocated l.pendingHead l.pendingTail as

/-! ## One request -/

/-- A request gets behind the others, whatever the list was. -/
lemma bufferNolock_lists {l : LinkedLoop} {as : List (ℕ × ChannelElement)} (h : l.Lists as)
    (element : ChannelElement) :
    ∃ l', l.eventLoopChannelBufferNolock element = .returned l' ∧
      l'.Lists (as ++ [(l.allocated, element)]) ∧ l'.handled = l.handled ∧
      l'.isHandlePending = l.isHandlePending := by
  by_cases has : as = []
  · have hhead := h.eq_nil_iff.1 has
    subst has
    have heq : l.eventLoopChannelBufferNolock element = .returned { l with
        elements := Function.update l.elements l.allocated (some ⟨element, none⟩)
        allocated := l.allocated + 1
        pendingHead := some l.allocated
        pendingTail := some l.allocated } := by
      simp only [eventLoopChannelBufferNolock, hhead]
    exact ⟨_, heq, IsQueue.singleton l.elements l.allocated element, rfl, rfl⟩
  · obtain ⟨init, t, x, rfl, htail, hcell⟩ := h.last_cell has
    have hlt : t < l.allocated := h.lt_bound t (by simp)
    have hcell' : Function.update l.elements l.allocated (some ⟨element, none⟩) t =
        some ⟨x, none⟩ := by
      rw [Function.update_of_ne (Nat.ne_of_lt hlt)]
      exact hcell
    obtain ⟨head, hhead⟩ : ∃ head, l.pendingHead = some head :=
      Option.ne_none_iff_exists'.1 fun hnone => has (h.eq_nil_iff.2 hnone)
    have hqueue := h
    rw [Lists, htail] at hqueue
    have heq : l.eventLoopChannelBufferNolock element = .returned { l with
        elements := Function.update
          (Function.update l.elements l.allocated (some ⟨element, none⟩)) t
          (some ⟨x, some l.allocated⟩)
        allocated := l.allocated + 1
        pendingTail := some l.allocated } := by
      simp only [eventLoopChannelBufferNolock, hhead, htail, hcell']
    exact ⟨_, heq, hqueue.append element, rfl, rfl⟩

/-! ## A drain -/

/-- What the list is does not matter to a handler. -/
lemma handleElement_pending (env : Surroundings) (loop : EventLoop) (element : ChannelElement)
    (xs : List ChannelElement) :
    handleElement env { loop with pending := xs } element =
      handleElement env loop element >>= fun loop' => .returned { loop' with pending := xs } := by
  unfold handleElement
  cases element.type with
  | add =>
    simp only [handlePendingAdd]
    split_ifs
    · rfl
    · cases mapFor env loop.channelMap (env.channels element.channel).fd with
      | returned map =>
        cases map with
        | none => rfl
        | some map =>
          simp only [Outcome.returned_bind]
          split_ifs
          · cases loop.eventDispatcher.add env.isOpen (env.channels element.channel) <;> rfl
          · rfl
      | faulted e => rfl
      | running => rfl
  | remove =>
    simp only [handlePendingRemove]
    split_ifs
    · rfl
    · rfl
    · cases loop.channelMap.entry (env.channels element.channel).fd with
      | none => rfl
      | some channel2 =>
        dsimp only
        cases loop.eventDispatcher.del (env.channels channel2) <;> rfl
  | update =>
    simp only [handlePendingUpdate]
    split_ifs
    · rfl
    · rfl
    · rfl
    · cases loop.eventDispatcher.update (env.channels element.channel) <;> rfl

lemma run_pending (env : Surroundings) (xs ys : List ChannelElement) :
    ∀ loop : EventLoop, Outcome.run (handleElement env) { loop with pending := xs } ys =
      Outcome.run (handleElement env) loop ys >>= fun loop' =>
        .returned { loop' with pending := xs } := by
  induction ys with
  | nil => exact fun loop => rfl
  | cons y ys ih =>
    intro loop
    unfold Outcome.run
    rw [handleElement_pending]
    cases handleElement env loop y with
    | returned loop' => exact ih loop'
    | faulted e => rfl
    | running => rfl

/-- The loop after the handlers of `xs` have left `loop`. -/
def handledAll (l : LinkedLoop) (loop : EventLoop) (xs : List ChannelElement) : LinkedLoop :=
  { l with
    channelMap := loop.channelMap
    eventDispatcher := loop.eventDispatcher
    handled := l.handled ++ xs }

/-- A handler of a loop without a list leaves one without a list. -/
lemma bare_of_handled {env : Surroundings} {l : LinkedLoop} {element : ChannelElement}
    {loop : EventLoop} (h : handleElement env l.bare element = .returned loop) :
    (l.handledAll loop [element]).bare = loop := by
  have hpending := handleElement_pending env l.bare element []
  have hbare : { l.bare with pending := [] } = l.bare := rfl
  rw [hbare, h, Outcome.returned_bind, Outcome.returned.injEq] at hpending
  rw [hpending]
  rfl

/-- The walk over the cells runs the handlers of the elements in order.  The induction is on
the cells ahead; the cells themselves do not change. -/
lemma loop_walk (env : Surroundings) (as : List (ℕ × ChannelElement)) :
    ∀ {l : LinkedLoop} {p : Option ℕ}, Leads l.elements p as none → ∀ {budget : ℕ},
      as.length < budget → Outcome.loop (pendingTurn env) budget (l, p) =
        Outcome.run (handleElement env) l.bare (as.map Prod.snd) >>= fun loop =>
          .returned (l.handledAll loop (as.map Prod.snd)) := by
  induction as with
  | nil =>
    rintro l p hp budget hlt
    obtain ⟨budget, rfl⟩ : ∃ k, budget = k + 1 := ⟨budget - 1, by simp at hlt; omega⟩
    obtain rfl : p = none := hp
    have hdone : pendingTurn env (l, none) = .returned (.done l) := rfl
    rw [Outcome.loop_done hdone]
    simp [bare, handledAll]
  | cons a as ih =>
    rintro l p ⟨rfl, next, hcell, hrest⟩ budget hlt
    obtain ⟨budget, rfl⟩ : ∃ k, budget = k + 1 := ⟨budget - 1, by simp at hlt; omega⟩
    simp only [List.map_cons, Outcome.run]
    cases hrun : handleElement env l.bare a.2 with
    | returned loop =>
      have hturn : pendingTurn env (l, some a.1) =
          .returned (.next (l.handledAll loop [a.2], next)) := by
        simp only [pendingTurn, hcell, hrun, Outcome.returned_bind, Outcome.pure_eq]
        rfl
      have hlt' : as.length < budget := by
        rw [List.length_cons] at hlt
        omega
      have hwalk := ih (l := l.handledAll loop [a.2]) hrest hlt'
      rw [bare_of_handled hrun] at hwalk
      rw [Outcome.loop_next hturn, hwalk]
      dsimp only
      cases Outcome.run (handleElement env) loop (as.map Prod.snd) with
      | returned loop' => simp [handledAll]
      | faulted e => rfl
      | running => rfl
    | faulted e => simp [Outcome.loop, pendingTurn, hcell, hrun]
    | running => simp [Outcome.loop, pendingTurn, hcell, hrun]

/-- The loop after a drain. -/
def drained (l : LinkedLoop) (loop : EventLoop) (xs : List ChannelElement) : LinkedLoop :=
  { l.handledAll loop xs with
    pendingHead := none
    pendingTail := none
    isHandlePending := false }

/-- The drain of the linked list is the drain of `EventLoop` on the elements of the list. -/
theorem handlePendingChannel_refines {l : LinkedLoop} {as : List (ℕ × ChannelElement)}
    (h : l.Lists as) (env : Surroundings) {budget : ℕ} (hlt : as.length < budget) :
    l.handlePendingChannel env budget =
      eventLoopHandlePendingChannel env { l.bare with pending := as.map Prod.snd } >>= fun loop =>
        .returned (l.drained loop (as.map Prod.snd)) := by
  have hwalk := loop_walk env as (l := { l with isHandlePending := true }) h.path hlt
  have hbare : ({ l with isHandlePending := true } : LinkedLoop).bare = l.bare := rfl
  rw [hbare] at hwalk
  unfold handlePendingChannel eventLoopHandlePendingChannel
  dsimp only
  rw [hwalk, run_pending env (as.map Prod.snd) (as.map Prod.snd) l.bare]
  cases Outcome.run (handleElement env) l.bare (as.map Prod.snd) <;> rfl

/-- A drain that comes back has handled the whole list, in order. -/
lemma handlePendingChannel_returned {l l' : LinkedLoop} {as : List (ℕ × ChannelElement)}
    (h : l.Lists as) {env : Surroundings} {budget : ℕ}
    (hdrain : l.handlePendingChannel env budget = .returned l') :
    ∃ loop, l' = l.drained loop (as.map Prod.snd) := by
  obtain ⟨l₁, hloop, -⟩ := Outcome.bind_eq_returned.1 hdrain
  have hmore : l.handlePendingChannel env (budget + as.length + 1) = .returned l' := by
    have hmono := Outcome.loop_mono (Nat.le_add_right budget (as.length + 1))
      (by rw [hloop]; simp)
    unfold handlePendingChannel at hdrain ⊢
    dsimp only at hdrain hmono ⊢
    rw [Nat.add_assoc, hmono]
    exact hdrain
  rw [handlePendingChannel_refines h env (by omega)] at hmore
  obtain ⟨loop, -, hlast⟩ := Outcome.bind_eq_returned.1 hmore
  exact ⟨loop, (Outcome.returned.inj hlast).symm⟩

end LinkedLoop

/-! ## The threads -/

/-- A loop as its threads share it. -/
structure SharedLoop where
  loop : LinkedLoop
  /-- The requests, in the order in which they took the lock. -/
  requests : List ChannelElement
  /-- The thread has put a request into the list and has not yet woken the owner up or, if it
  is the owner, drained the list. -/
  buffered : ℕ → Bool

/-- A loop as `event_loop_init` leaves it, before the first request. -/
def SharedLoop.init (channelMap : ChannelMap) (eventDispatcher : Dispatcher) : SharedLoop where
  loop :=
    { channelMap := channelMap
      eventDispatcher := eventDispatcher
      isHandlePending := false
      pendingHead := none
      pendingTail := none
      elements := fun _ => none
      allocated := 0
      handled := [] }
  requests := []
  buffered := fun _ => false

/-- One step of one thread.  A critical section is one step. -/
inductive SharedStep (owner : ℕ) : SharedLoop → SharedLoop → Prop
  /-- A thread puts a request into the list. -/
  | buffer {s : SharedLoop} {thread : ℕ} {element : ChannelElement} {loop : LinkedLoop} :
      s.buffered thread = false → s.loop.doChannelEvent element = .returned loop →
      SharedStep owner s
        ⟨loop, s.requests ++ [element], Function.update s.buffered thread true⟩
  /-- Another thread than the owner wakes the owner up. -/
  | wakeup {s : SharedLoop} {thread : ℕ} :
      thread ≠ owner → s.buffered thread = true →
      SharedStep owner s { s with buffered := Function.update s.buffered thread false }
  /-- The owner drains the list, behind a request of its own or at the end of a round. -/
  | drain {s : SharedLoop} {env : Surroundings} {budget : ℕ} {loop : LinkedLoop} :
      s.loop.handlePendingChannel env budget = .returned loop →
      SharedStep owner s
        { s with loop := loop, buffered := Function.update s.buffered owner false }

/-- What the threads can rely on between two critical sections. -/
structure SharedLoop.Orderly (s : SharedLoop) : Prop where
  /-- The pointers describe a queue with `pending_tail` at its last element, and the handlers
  that have been run, followed by this queue, are the requests in the order of the lock. -/
  fifo : ∃ as, s.loop.Lists as ∧ s.loop.handled ++ as.map Prod.snd = s.requests
  idle : s.loop.isHandlePending = false
  /-- The next request passes the assertion and gets in. -/
  accepts : ∀ element, ∃ loop, s.loop.doChannelEvent element = .returned loop
  /-- A drain comes back if the handlers it has to run do. -/
  drains : ∀ as env loop, s.loop.Lists as →
    Outcome.run (handleElement env) s.loop.bare (as.map Prod.snd) = .returned loop →
      ∃ budget l, s.loop.handlePendingChannel env budget = .returned l

lemma SharedLoop.Orderly.of_fifo {s : SharedLoop}
    (hfifo : ∃ as, s.loop.Lists as ∧ s.loop.handled ++ as.map Prod.snd = s.requests)
    (hidle : s.loop.isHandlePending = false) : s.Orderly := by
  refine ⟨hfifo, hidle, fun element => ?_, fun as env loop hlists hrun => ?_⟩
  · obtain ⟨as, hlists, -⟩ := hfifo
    obtain ⟨l, heq, -⟩ := LinkedLoop.bufferNolock_lists hlists element
    exact ⟨l, by rw [LinkedLoop.doChannelEvent, if_pos hidle, heq]⟩
  · refine ⟨as.length + 1, ?_⟩
    rw [LinkedLoop.handlePendingChannel_refines hlists env (Nat.lt_succ_self _),
      eventLoopHandlePendingChannel,
      LinkedLoop.run_pending env (as.map Prod.snd) (as.map Prod.snd) s.loop.bare, hrun]
    exact ⟨_, rfl⟩

lemma SharedStep.orderly {owner : ℕ} {s s' : SharedLoop} (h : s.Orderly)
    (hstep : SharedStep owner s s') : s'.Orderly := by
  obtain ⟨as, hlists, hrequests⟩ := h.fifo
  have hidle := h.idle
  cases hstep with
  | @buffer thread element loop hfree hbuffer =>
    rw [LinkedLoop.doChannelEvent, if_pos hidle] at hbuffer
    obtain ⟨l, heq, hlists', hhandled, hpending⟩ := LinkedLoop.bufferNolock_lists hlists element
    obtain rfl : l = loop := Outcome.returned.inj (heq.symm.trans hbuffer)
    refine .of_fifo ⟨_, hlists', ?_⟩ (hpending.trans hidle)
    rw [hhandled, List.map_append, ← List.append_assoc, hrequests]
    rfl
  | wakeup _ _ => exact .of_fifo ⟨as, hlists, hrequests⟩ hidle
  | @drain env budget loop hdrain =>
    obtain ⟨loop', rfl⟩ := LinkedLoop.handlePendingChannel_returned hlists hdrain
    refine .of_fifo ⟨[], isQueue_nil _ _, ?_⟩ rfl
    rw [List.map_nil, List.append_nil]
    exact hrequests

/-- However the critical sections of the threads follow each other, the handlers run in the
order in which the requests took the lock, each request is handled once, and none of the calls
fails. -/
theorem pending_list_fifo (owner : ℕ) (channelMap : ChannelMap) (eventDispatcher : Dispatcher)
    {s : SharedLoop}
    (h : Relation.ReflTransGen (SharedStep owner) (SharedLoop.init channelMap eventDispatcher) s) :
    s.Orderly := by
  have hinit : (SharedLoop.init channelMap eventDispatcher).Orderly :=
    .of_fifo ⟨[], isQueue_nil _ _, rfl⟩ rfl
  exact Transition.invariant SharedLoop.Orderly hinit (fun _ _ ho hstep => hstep.orderly ho) h

/-- One channel, on descriptor 5. -/
def fiveOnly : Surroundings where
  channels _ := channelNew 5 eventRead none none (.eventLoop 0)
  isOpen _ := true
  served _ := true

/-- Thread 1 asks for the channel to be added; before the owner has drained its own request to
update it, thread 1 has woken it up. -/
theorem pending_list_fifo_twoThreads :
    ∃ s : SharedLoop, s.requests = [⟨.add, 0⟩, ⟨.update, 0⟩] ∧
      s.loop.handled = [⟨.add, 0⟩, ⟨.update, 0⟩] ∧ s.Orderly := by
  have hempty : Relation.ReflTransGen (SharedStep 0)
      (SharedLoop.init mapInit (.epoll fun _ => none)) _ := .refl
  have hadd := hempty.tail (@SharedStep.buffer 0 _ 1 ⟨.add, 0⟩ _ rfl rfl)
  have hupdate := hadd.tail (@SharedStep.buffer 0 _ 0 ⟨.update, 0⟩ _ rfl rfl)
  have hwakeup := hupdate.tail (@SharedStep.wakeup 0 _ 1 (by decide) rfl)
  have hdrain := hwakeup.tail (@SharedStep.drain 0 _ fiveOnly 3 _ rfl)
  exact ⟨_, rfl, rfl, pending_list_fifo 0 mapInit (.epoll fun _ => none) hdrain⟩

end Yolanda
