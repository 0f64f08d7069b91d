import CPYuZe.Yolanda.EventLoop

/-!
# Requests for channels the map does not have

A remove or an update request may find no entry for its descriptor: the channel was never
added, or an earlier request of the same list has taken it out.  What
`event_loop_handle_pending_remove` and `event_loop_handle_pending_update` answer is wanted here,
so the two are stated once more with their `int`; the handlers of `EventLoop` are what is left
without it.

Each of the two makes two of the three checks.  The first compares the descriptor with
`nentries` and takes what it reads for a channel; the second looks for `NULL` and reads wherever
the descriptor points.  `missing_iff` gives the descriptors each of them gets through with.
-/

namespace Yolanda

/-- Both dispatchers answer 0 when they come back. -/
def Dispatcher.delAnswer (d : Dispatcher) (channel : Channel) : Call (ℤ × Dispatcher) := do
  let d ← d.del channel
  pure (0, d)

/-- `event_loop_handle_pending_remove`, with its result. -/
def eventLoopHandlePendingRemove (env : Surroundings) (loop : EventLoop) (channel1 : ChannelPtr) :
    Call (Option ℤ × EventLoop) :=
  let fd := (env.channels channel1).fd
  if fd < 0 then .returned (some 0, loop)
  else if fd ≥ loop.channelMap.nentries then .returned (some (-1), loop)
  else
    match loop.channelMap.entry fd with
    | none => .faulted .nullPointer
    | some channel2 => do
      let (answer, dispatcher) ← loop.eventDispatcher.delAnswer (env.channels channel2)
      let retval := if answer = -1 then -1 else 1
      pure (some retval, { loop with
        channelMap := loop.channelMap.set fd none
        eventDispatcher := dispatcher })

/-- `event_loop_handle_pending_update`, with its result.  Control reaches the end of the
function without one when the channel has been updated. -/
def eventLoopHandlePendingUpdate (env : Surroundings) (loop : EventLoop) (channel : ChannelPtr) :
    Call (Option ℤ × EventLoop) :=
  let fd := (env.channels channel).fd
  if fd < 0 then .returned (some 0, loop)
  else if fd ≥ loop.channelMap.nentries then .faulted .outOfBounds
  else if loop.channelMap.entry fd = none then .returned (some (-1), loop)
  else do
    let dispatcher ← loop.eventDispatcher.update (env.channels channel)
    pure (none, { loop with eventDispatcher := dispatcher })

/-- The map has no channel for the descriptor. -/
def Missing (map : ChannelMap) (fd : ℤ) : Prop :=
  fd < 0 ∨ map.nentries ≤ fd ∨ map.entry fd = none

/-- The call answers 0 or -1 and leaves the map and the dispatcher as they are. -/
def Refused (loop : EventLoop) (call : Call (Option ℤ × EventLoop)) : Prop :=
  ∃ retval loop', call = .returned (some retval, loop') ∧ (retval = 0 ∨ retval = -1) ∧
    loop'.channelMap = loop.channelMap ∧ loop'.eventDispatcher = loop.eventDispatcher

section

variable {env : Surroundings} {loop : EventLoop} {channel : ChannelPtr}

/-! ## The handlers without their results -/

lemma handlePendingRemove_eq :
    handlePendingRemove env loop channel =
      (do let r ← eventLoopHandlePendingRemove env loop channel; pure r.2) := by
  simp only [handlePendingRemove, eventLoopHandlePendingRemove, Dispatcher.delAnswer]
  split_ifs
  · rfl
  · rfl
  · cases loop.channelMap.entry (env.channels channel).fd with
    | none => rfl
    | some channel2 =>
      dsimp only
      cases loop.eventDispatcher.del (env.channels channel2) <;> rfl

lemma handlePendingUpdate_eq :
    handlePendingUpdate env loop channel =
      (do let r ← eventLoopHandlePendingUpdate env loop channel; pure r.2) := by
  simp only [handlePendingUpdate, eventLoopHandlePendingUpdate]
  split_ifs
  · rfl
  · rfl
  · rfl
  · cases loop.eventDispatcher.update (env.channels channel) <;> rfl

/-! ## What the checks let through -/

lemma refused_of_returned {retval : ℤ} {call : Call (Option ℤ × EventLoop)}
    (hcall : call = .returned (some retval, loop)) (hretval : retval = 0 ∨ retval = -1) :
    Refused loop call :=
  ⟨retval, loop, hcall, hretval, rfl, rfl⟩

lemma not_refused_of_faulted {f : Fault} {call : Call (Option ℤ × EventLoop)}
    (hcall : call = .faulted f) : ¬ Refused loop call := by
  rintro ⟨retval, loop', h, -⟩
  cases hcall.symm.trans h

/-- A descriptor inside the map without an entry hands the dispatcher a null channel. -/
lemma remove_refused_iff (hmissing : Missing loop.channelMap (env.channels channel).fd) :
    Refused loop (eventLoopHandlePendingRemove env loop channel) ↔
      (env.channels channel).fd < 0 ∨ loop.channelMap.nentries ≤ (env.channels channel).fd := by
  by_cases hneg : (env.channels channel).fd < 0
  · exact iff_of_true (refused_of_returned (if_pos hneg) (.inl rfl)) (.inl hneg)
  by_cases hge : loop.channelMap.nentries ≤ (env.channels channel).fd
  · refine iff_of_true (refused_of_returned ?_ (.inr rfl)) (.inr hge)
    exact (if_neg hneg).trans (if_pos hge)
  · have hnone : loop.channelMap.entry (env.channels channel).fd = none :=
      (hmissing.resolve_left hneg).resolve_left hge
    refine iff_of_false (not_refused_of_faulted (f := .nullPointer) ?_) (not_or.2 ⟨hneg, hge⟩)
    simp [eventLoopHandlePendingRemove, hneg, hnone, not_le.1 hge]

/-- A descriptor outside the map is read for nevertheless. -/
lemma update_refused_iff (hmissing : Missing loop.channelMap (env.channels channel).fd) :
    Refused loop (eventLoopHandlePendingUpdate env loop channel) ↔
      (env.channels channel).fd < 0 ∨ (env.channels channel).fd < loop.channelMap.nentries := by
  by_cases hneg : (env.channels channel).fd < 0
  · exact iff_of_true (refused_of_returned (if_pos hneg) (.inl rfl)) (.inl hneg)
  by_cases hge : loop.channelMap.nentries ≤ (env.channels channel).fd
  · refine iff_of_false (not_refused_of_faulted (f := .outOfBounds) ?_)
      (not_or.2 ⟨hneg, not_lt.2 hge⟩)
    exact (if_neg hneg).trans (if_pos hge)
  · have hnone : loop.channelMap.entry (env.channels channel).fd = none :=
      (hmissing.resolve_left hneg).resolve_left hge
    refine iff_of_true (refused_of_returned ?_ (.inr rfl)) (.inr (not_le.1 hge))
    exact (if_neg hneg).trans ((if_neg hge).trans (if_pos hnone))

end

/-- For a descriptor without an entry, a remove request is refused exactly when the descriptor
is negative or beyond the map, and an update request exactly when it is negative or inside. -/
theorem missing_iff (env : Surroundings) (loop : EventLoop) (channel : ChannelPtr)
    (hmissing : Missing loop.channelMap (env.channels channel).fd) :
    (Refused loop (eventLoopHandlePendingRemove env loop channel) ↔
        (env.channels channel).fd < 0 ∨ loop.channelMap.nentries ≤ (env.channels channel).fd) ∧
      (Refused loop (eventLoopHandlePendingUpdate env loop channel) ↔
        (env.channels channel).fd < 0 ∨
          (env.channels channel).fd < loop.channelMap.nentries) :=
  ⟨remove_refused_iff hmissing, update_refused_iff hmissing⟩

def oneConnection : Surroundings where
  channels _ := channelNew 5 eventRead (some .handleRead) none (.tcpConnection 0)
  isOpen _ := true
  served _ := true

def emptyLoop : EventLoop := ⟨mapInit, .epoll fun _ => none, []⟩

/-- The connection has been added and removed. -/
lemma removed_run :
    ∃ loop, Outcome.run (handleElement oneConnection) emptyLoop [⟨.add, 0⟩, ⟨.remove, 0⟩] =
        .returned loop ∧
      loop.channelMap.nentries = 32 ∧ loop.channelMap.entry 5 = none :=
  ⟨_, rfl, rfl, rfl⟩

/-- The requests for the connection before it has been added. -/
theorem missing_iff_emptyLoop :
    (Refused emptyLoop (eventLoopHandlePendingRemove oneConnection emptyLoop 0) ↔
        (5 : ℤ) < 0 ∨ emptyLoop.channelMap.nentries ≤ 5) ∧
      (Refused emptyLoop (eventLoopHandlePendingUpdate oneConnection emptyLoop 0) ↔
        (5 : ℤ) < 0 ∨ 5 < emptyLoop.channelMap.nentries) :=
  missing_iff oneConnection emptyLoop 0 (.inr (.inr rfl))

/-- A second remove request for a connection follows a null pointer. -/
theorem not_refused_missing :
    ¬ ∀ (env : Surroundings) (loop : EventLoop) (channel : ChannelPtr),
      Missing loop.channelMap (env.channels channel).fd →
        Refused loop (eventLoopHandlePendingRemove env loop channel) ∧
          Refused loop (eventLoopHandlePendingUpdate env loop channel) := by
  intro h
  obtain ⟨loop, -, hentries, hnone⟩ := removed_run
  have hmissing : Missing loop.channelMap (oneConnection.channels 0).fd := .inr (.inr hnone)
  have hrefused := (remove_refused_iff hmissing).1 (h oneConnection loop 0 hmissing).1
  rw [hentries] at hrefused
  exact absurd hrefused (by decide)

end Yolanda
