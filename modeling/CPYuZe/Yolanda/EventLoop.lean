import CPYuZe.Yolanda.Channel

/-!
# The event loop: channel map, dispatchers and pending requests

An event loop keeps three records: `channelMap` says which channel belongs to a descriptor,
the dispatcher says which descriptors the kernel watches, and the pending list holds the
requests that will bring the two up to date.  This file has `channel_map.c`, the functions of
`event_loop.c` that handle one request, and `add`, `del` and `update` of both dispatchers.

Channels live in a memory the loop only points into: a request and a map entry are addresses,
and the handlers read the flags a channel has when they run.  Two things come from outside
with every drain (`Surroundings`): which descriptors are open, since `epoll_ctl` fails on the
others and a failure of `epoll_ctl` ends the process, and whether `realloc` serves a map of a
given size.  No function frees a channel, so an address stays good.

The `int` a handler returns is ignored by its one caller and is left out.  The interest set of
epoll is the kernel's: a function from descriptors to the events watched for.  The slots of
poll are a function on numbers of which the first `initPollSize` are the array.
-/

namespace Yolanda

/-- The address of a channel. -/
abbrev ChannelPtr := ℕ

/-! ## The channel map -/

/-- The length of `entries` is `nentries` of the source. -/
structure ChannelMap where
  entries : List (Option ChannelPtr)
  deriving DecidableEq, Repr

namespace ChannelMap

def nentries (map : ChannelMap) : ℤ := map.entries.length

/-- `entries[fd]`, with nothing outside the array. -/
def entry (map : ChannelMap) (fd : ℤ) : Option ChannelPtr :=
  if fd < 0 then none else (map.entries[fd.toNat]?).join

/-- `entries[fd] = channel`. -/
def set (map : ChannelMap) (fd : ℤ) (channel : Option ChannelPtr) : ChannelMap :=
  ⟨map.entries.set fd.toNat channel⟩

lemma entry_of_nentries_le {map : ChannelMap} {fd : ℤ} (h : map.nentries ≤ fd) :
    map.entry fd = none := by
  unfold nentries at h
  unfold entry
  split_ifs with hneg
  · rfl
  · rw [List.getElem?_eq_none (by omega)]
    rfl

lemma entry_of_neg {map : ChannelMap} {fd : ℤ} (h : fd < 0) : map.entry fd = none :=
  if_pos h

lemma entry_set {map : ChannelMap} {fd : ℤ} (h₀ : 0 ≤ fd) (h : fd < map.nentries)
    (channel : Option ChannelPtr) :
    (map.set fd channel).entry = Function.update map.entry fd channel := by
  unfold nentries at h
  funext fd'
  by_cases hfd : fd' = fd
  · subst hfd
    have hlt : ¬ fd' < 0 := by omega
    simp only [entry, set, hlt, if_false, Function.update_self]
    rw [List.getElem?_set_self (by omega)]
    rfl
  · rw [Function.update_of_ne hfd]
    unfold entry set
    split_ifs with hneg
    · rfl
    · rw [List.getElem?_set_ne (by omega)]

/-- Empty entries behind the others make no difference. -/
lemma entry_append_replicate (map : ChannelMap) (n : ℕ) :
    (⟨map.entries ++ List.replicate n none⟩ : ChannelMap).entry = map.entry := by
  funext fd
  unfold entry
  split_ifs with hneg
  · rfl
  · by_cases hin : fd.toNat < map.entries.length
    · rw [List.getElem?_append_left hin]
    · rw [List.getElem?_append_right (by omega), List.getElem?_replicate,
        List.getElem?_eq_none (by omega)]
      split_ifs <;> rfl

end ChannelMap

def mapInit : ChannelMap := ⟨[]⟩

/-- `nentries <<= 1` on a 32-bit `int`. -/
def shiftLeftOne (nentries : ℤ) : ℤ := (nentries * 2).bmod (2 ^ 32)

def doubleTurn (slot nentries : ℤ) : Call (Outcome.Turn ℤ ℤ) :=
  if nentries ≤ slot then .returned (.next (shiftLeftOne nentries))
  else .returned (.done nentries)

/-- A positive `int` that has been doubled 32 times is zero and stays zero, so a loop that has
not ended by then never does. -/
def maxDoublings : ℕ := 33

/-- `none` where the source returns `-1`.  `served n` says whether `realloc` has room for `n`
entries; it has none for a size that leaves the range of `int`. -/
def mapMakeSpace (served : ℤ → Bool) (map : ChannelMap) (slot : ℤ) : Call (Option ChannelMap) :=
  if map.nentries ≤ slot then do
    let nentries ← Outcome.loop (doubleTurn slot) maxDoublings
      (if map.nentries ≠ 0 then map.nentries else 32)
    if served nentries then
      pure (some ⟨map.entries ++ List.replicate (nentries - map.nentries).toNat none⟩)
    else pure none
  else pure (some map)

lemma shiftLeftOne_two_pow {k : ℕ} (hk : k < 30) : shiftLeftOne (2 ^ k) = 2 ^ (k + 1) := by
  have hlt : (2 : ℤ) ^ k ≤ 2 ^ 29 := pow_le_pow_right₀ (by norm_num) (by omega)
  have hpos : (0 : ℤ) < 2 ^ k := by positivity
  rw [shiftLeftOne, Int.bmod_eq_of_le (by omega) (by omega), pow_succ]

lemma doubleTurn_next {slot n : ℤ} (h : n ≤ slot) :
    doubleTurn slot n = .returned (.next (shiftLeftOne n)) := if_pos h

lemma doubleTurn_done {slot n : ℤ} (h : slot < n) : doubleTurn slot n = .returned (.done n) :=
  if_neg (not_le.2 h)

/-- The doubling loop ends above the slot it was started for. -/
lemma lt_of_doubleTurn {slot : ℤ} {budget : ℕ} {n m : ℤ}
    (h : Outcome.loop (doubleTurn slot) budget n = .returned m) : slot < m := by
  induction budget generalizing n with
  | zero => cases h
  | succ budget ih =>
    by_cases hle : n ≤ slot
    · rw [Outcome.loop_next (doubleTurn_next hle)] at h
      exact ih h
    · rw [Outcome.loop_done (doubleTurn_done (not_le.1 hle))] at h
      cases h
      omega

/-- Below `2 ^ 30` every power of two that the loop starts from reaches the slot, and the loop
ends with the first power of two above it. -/
lemma doubleTurn_returns {slot : ℤ} (hslot : slot < 2 ^ 30) {j : ℕ} :
    ∀ {k : ℕ}, k + j = 30 →
      ∃ q, Outcome.loop (doubleTurn slot) (j + 1) (2 ^ k) = .returned (2 ^ q) ∧
        slot < 2 ^ q ∧ k ≤ q ∧ (k < q → 2 ^ (q - 1) ≤ slot) := by
  induction j with
  | zero =>
    intro k hk
    obtain rfl : k = 30 := by omega
    exact ⟨30, Outcome.loop_done (doubleTurn_done hslot) 0, hslot, le_rfl, by omega⟩
  | succ j ih =>
    intro k hk
    by_cases hle : (2 : ℤ) ^ k ≤ slot
    · have hnext := doubleTurn_next hle
      rw [shiftLeftOne_two_pow (by omega)] at hnext
      obtain ⟨q, hq, hlt, hkq, hleast⟩ := ih (by omega : k + 1 + j = 30)
      refine ⟨q, by rw [Outcome.loop_next hnext, hq], hlt, by omega, fun _ => ?_⟩
      rcases Nat.lt_or_ge (k + 1) q with hgt | hge
      · exact hleast hgt
      · obtain rfl : q = k + 1 := by omega
        exact hle
    · exact ⟨k, Outcome.loop_done (doubleTurn_done (not_le.1 hle)) _, not_le.1 hle, le_rfl,
        by omega⟩

/-- From `2 ^ 30` on the doubling passes over the slot into zero. -/
lemma doubleTurn_diverges {slot : ℤ} (hslot : 2 ^ 30 ≤ slot) {j : ℕ} :
    ∀ {k : ℕ}, k + j = 30 → Outcome.Diverges (doubleTurn slot) (2 ^ k) := by
  induction j with
  | zero =>
    intro k hk
    obtain rfl : k = 30 := by omega
    have hzero : shiftLeftOne 0 = 0 := by decide
    have hlast : shiftLeftOne (2 ^ 30) = -2 ^ 31 := by decide
    have hover : shiftLeftOne (-2 ^ 31) = 0 := by decide
    have hstays := doubleTurn_next (show 0 ≤ slot by omega)
    rw [hzero] at hstays
    apply Outcome.Diverges.of_next (doubleTurn_next hslot)
    rw [hlast]
    apply Outcome.Diverges.of_next (doubleTurn_next (by omega))
    rw [hover]
    exact Outcome.diverges_of_next hstays
  | succ j ih =>
    intro k hk
    have hle : (2 : ℤ) ^ k ≤ 2 ^ 30 := pow_le_pow_right₀ (by norm_num) (by omega)
    apply Outcome.Diverges.of_next (doubleTurn_next (hle.trans hslot))
    rw [shiftLeftOne_two_pow (by omega)]
    exact ih (by omega)

/-- A map that has grown holds what it held, and has the slot. -/
lemma mapMakeSpace_spec {served : ℤ → Bool} {map map' : ChannelMap} {slot : ℤ}
    (h : mapMakeSpace served map slot = .returned (some map')) :
    map'.entry = map.entry ∧ slot < map'.nentries := by
  unfold mapMakeSpace at h
  by_cases hle : map.nentries ≤ slot
  · rw [if_pos hle] at h
    obtain ⟨n, hn, hgrown⟩ := Outcome.bind_eq_returned.1 h
    have hlt := lt_of_doubleTurn hn
    split_ifs at hgrown with hserved
    · cases hgrown
      refine ⟨map.entry_append_replicate _, ?_⟩
      simp only [ChannelMap.nentries] at hle ⊢
      rw [List.length_append, List.length_replicate]
      omega
    · cases hgrown
  · rw [if_neg hle] at h
    cases h
    exact ⟨rfl, by omega⟩

/-- The map is left as it is only because `realloc` has no room. -/
lemma mapMakeSpace_none {served : ℤ → Bool} {map : ChannelMap} {slot : ℤ}
    (h : mapMakeSpace served map slot = .returned none) : ∃ n, served n = false := by
  unfold mapMakeSpace at h
  by_cases hle : map.nentries ≤ slot
  · rw [if_pos hle] at h
    obtain ⟨n, -, hrest⟩ := Outcome.bind_eq_returned.1 h
    by_cases hserved : served n = true
    · simp [hserved] at hrest
    · exact ⟨n, by simpa using hserved⟩
  · rw [if_neg hle] at h
    cases h

/-! ## The dispatchers -/

def EPOLLIN : BitVec 32 := 0x001#32
def EPOLLOUT : BitVec 32 := 0x004#32
def EPOLLERR : BitVec 32 := 0x008#32
def EPOLLHUP : BitVec 32 := 0x010#32

def POLLRDNORM : BitVec 16 := 0x040#16
def POLLWRNORM : BitVec 16 := 0x100#16

def initPollSize : ℕ := 1024

/-- `struct pollfd`; a slot that is not in use has the descriptor `-1`. -/
structure PollFd where
  fd : ℤ
  events : BitVec 16
  revents : BitVec 16
  deriving DecidableEq, Repr

inductive Dispatcher
  /-- The interest set of the epoll instance. -/
  | epoll (interest : ℤ → Option (BitVec 32))
  /-- The array `event_set`. -/
  | poll (eventSet : ℕ → PollFd)

def epollEvents (channel : Channel) : BitVec 32 :=
  (if channel.events &&& eventRead != 0#32 then EPOLLIN else 0#32) |||
    (if channel.events &&& eventWrite != 0#32 then EPOLLOUT else 0#32)

def pollEvents (channel : Channel) : BitVec 16 :=
  (if channel.events &&& eventRead != 0#32 then POLLRDNORM else 0#16) |||
    (if channel.events &&& eventWrite != 0#32 then POLLWRNORM else 0#16)

/-- `epoll_ctl` refuses to add a descriptor that is closed or already there. -/
def epollAdd (isOpen : ℤ → Bool) (interest : ℤ → Option (BitVec 32)) (channel : Channel) :
    Call (ℤ → Option (BitVec 32)) :=
  if isOpen channel.fd = true ∧ interest channel.fd = none then
    .returned (Function.update interest channel.fd (some (epollEvents channel)))
  else .faulted .exit

def epollDel (interest : ℤ → Option (BitVec 32)) (channel : Channel) :
    Call (ℤ → Option (BitVec 32)) :=
  if (interest channel.fd).isSome then .returned (Function.update interest channel.fd none)
  else .faulted .exit

def epollUpdate (interest : ℤ → Option (BitVec 32)) (channel : Channel) :
    Call (ℤ → Option (BitVec 32)) :=
  if (interest channel.fd).isSome then
    .returned (Function.update interest channel.fd (some (epollEvents channel)))
  else .faulted .exit

/-- The first slot with a property. -/
def findSlot (eventSet : ℕ → PollFd) (p : PollFd → Bool) : Option ℕ :=
  (List.range initPollSize).find? fun i => p (eventSet i)

lemma findSlot_some {eventSet : ℕ → PollFd} {p : PollFd → Bool} {i : ℕ}
    (h : findSlot eventSet p = some i) :
    i < initPollSize ∧ p (eventSet i) = true := by
  have hmem := List.mem_of_find?_eq_some h
  exact ⟨List.mem_range.1 hmem, by simpa using List.find?_some h⟩

lemma findSlot_none {eventSet : ℕ → PollFd} {p : PollFd → Bool} {i : ℕ}
    (h : findSlot eventSet p = none) (hi : i < initPollSize) :
    p (eventSet i) = false := by
  have hnone := List.find?_eq_none.1 h i (List.mem_range.2 hi)
  simpa using hnone

/-- `revents` of the slot is left as it is; a full array is only logged. -/
def pollAdd (eventSet : ℕ → PollFd) (channel : Channel) : ℕ → PollFd :=
  match findSlot eventSet fun slot => decide (slot.fd < 0) with
  | some i =>
    Function.update eventSet i
      { eventSet i with fd := channel.fd, events := pollEvents channel }
  | none => eventSet

def pollDel (eventSet : ℕ → PollFd) (channel : Channel) : ℕ → PollFd :=
  match findSlot eventSet fun slot => decide (slot.fd = channel.fd) with
  | some i => Function.update eventSet i { eventSet i with fd := -1 }
  | none => eventSet

def pollUpdate (eventSet : ℕ → PollFd) (channel : Channel) : ℕ → PollFd :=
  match findSlot eventSet fun slot => decide (slot.fd = channel.fd) with
  | some i => Function.update eventSet i { eventSet i with events := pollEvents channel }
  | none => eventSet

namespace Dispatcher

def add (isOpen : ℤ → Bool) (d : Dispatcher) (channel : Channel) : Call Dispatcher :=
  match d with
  | epoll interest => do
    let interest ← epollAdd isOpen interest channel
    pure (epoll interest)
  | poll eventSet => .returned (poll (pollAdd eventSet channel))

def del (d : Dispatcher) (channel : Channel) : Call Dispatcher :=
  match d with
  | epoll interest => do
    let interest ← epollDel interest channel
    pure (epoll interest)
  | poll eventSet => .returned (poll (pollDel eventSet channel))

def update (d : Dispatcher) (channel : Channel) : Call Dispatcher :=
  match d with
  | epoll interest => do
    let interest ← epollUpdate interest channel
    pure (epoll interest)
  | poll eventSet => .returned (poll (pollUpdate eventSet channel))

/-- The descriptor is watched. -/
def Watches (d : Dispatcher) (fd : ℤ) : Prop :=
  match d with
  | epoll interest => (interest fd).isSome = true
  | poll eventSet => 0 ≤ fd ∧ ∃ i < initPollSize, (eventSet i).fd = fd

instance (d : Dispatcher) (fd : ℤ) : Decidable (d.Watches fd) :=
  match d with
  | epoll interest => inferInstanceAs (Decidable ((interest fd).isSome = true))
  | poll eventSet =>
    inferInstanceAs (Decidable (0 ≤ fd ∧ ∃ i < initPollSize, (eventSet i).fd = fd))

end Dispatcher

/-! ## Requests -/

/-- The `type` of a `struct channel_element`: 1, 2 and 3. -/
inductive RequestType
  | add
  | remove
  | update
  deriving DecidableEq, Repr

structure ChannelElement where
  type : RequestType
  channel : ChannelPtr
  deriving DecidableEq, Repr

structure EventLoop where
  channelMap : ChannelMap
  eventDispatcher : Dispatcher
  /-- The list from `pending_head` on. -/
  pending : List ChannelElement

/-- What a drain depends on besides the loop. -/
structure Surroundings where
  channels : ChannelPtr → Channel
  isOpen : ℤ → Bool
  served : ℤ → Bool

/-- The map with a slot for the descriptor, or `none` where `map_make_space` returns `-1`. -/
def mapFor (env : Surroundings) (map : ChannelMap) (fd : ℤ) : Call (Option ChannelMap) :=
  if fd ≥ map.nentries then mapMakeSpace env.served map fd else .returned (some map)

def handlePendingAdd (env : Surroundings) (loop : EventLoop) (channel : ChannelPtr) :
    Call EventLoop :=
  let fd := (env.channels channel).fd
  if fd < 0 then .returned loop
  else do
    match ← mapFor env loop.channelMap fd with
    | none => pure loop
    | some map =>
      if map.entry fd = none then do
        let dispatcher ← loop.eventDispatcher.add env.isOpen (env.channels channel)
        pure { loop with
          channelMap := map.set fd (some channel)
          eventDispatcher := dispatcher }
      else pure { loop with channelMap := map }

def handlePendingRemove (env : Surroundings) (loop : EventLoop) (channel1 : ChannelPtr) :
    Call EventLoop :=
  let fd := (env.channels channel1).fd
  if fd < 0 then .returned loop
  else if fd ≥ loop.channelMap.nentries then .returned loop
  else
    match loop.channelMap.entry fd with
    | none => .faulted .nullPointer
    | some channel2 => do
      let dispatcher ← loop.eventDispatcher.del (env.channels channel2)
      pure { loop with
        channelMap := loop.channelMap.set fd none
        eventDispatcher := dispatcher }

/-- Unlike its siblings the function does not compare the descriptor with `nentries`. -/
def handlePendingUpdate (env : Surroundings) (loop : EventLoop) (channel : ChannelPtr) :
    Call EventLoop :=
  let fd := (env.channels channel).fd
  if fd < 0 then .returned loop
  else if fd ≥ loop.channelMap.nentries then .faulted .outOfBounds
  else if loop.channelMap.entry fd = none then .returned loop
  else do
    let dispatcher ← loop.eventDispatcher.update (env.channels channel)
    pure { loop with eventDispatcher := dispatcher }

def handleElement (env : Surroundings) (loop : EventLoop) (element : ChannelElement) :
    Call EventLoop :=
  match element.type with
  | .add => handlePendingAdd env loop element.channel
  | .remove => handlePendingRemove env loop element.channel
  | .update => handlePendingUpdate env loop element.channel

def eventLoopHandlePendingChannel (env : Surroundings) (loop : EventLoop) : Call EventLoop := do
  let loop ← Outcome.run (handleElement env) loop loop.pending
  pure { loop with pending := [] }

/-! ## What one request can do -/

section Handlers

variable {env : Surroundings} {loop loop' : EventLoop} {channel : ChannelPtr}

lemma mapFor_spec {map map' : ChannelMap} {fd : ℤ} (h : mapFor env map fd = .returned (some map')) :
    map'.entry = map.entry ∧ fd < map'.nentries := by
  unfold mapFor at h
  split_ifs at h with hge
  · exact mapMakeSpace_spec h
  · cases h
    exact ⟨rfl, by omega⟩

lemma mapFor_none {map : ChannelMap} {fd : ℤ} (h : mapFor env map fd = .returned none) :
    ∃ n, env.served n = false := by
  unfold mapFor at h
  split_ifs at h with hge
  · exact mapMakeSpace_none h
  · cases h

/-- An add request is refused, finds the descriptor taken, or enters the channel. -/
lemma handlePendingAdd_cases (h : handlePendingAdd env loop channel = .returned loop') :
    loop'.pending = loop.pending ∧
    (loop'.channelMap.entry = loop.channelMap.entry ∧
        loop'.eventDispatcher = loop.eventDispatcher ∧
        ((env.channels channel).fd < 0 ∨ (∃ n, env.served n = false) ∨
          loop.channelMap.entry (env.channels channel).fd ≠ none) ∨
      0 ≤ (env.channels channel).fd ∧
        loop.channelMap.entry (env.channels channel).fd = none ∧
        loop'.channelMap.entry =
          Function.update loop.channelMap.entry (env.channels channel).fd (some channel) ∧
        loop.eventDispatcher.add env.isOpen (env.channels channel) =
          .returned loop'.eventDispatcher) := by
  unfold handlePendingAdd at h
  by_cases hneg : (env.channels channel).fd < 0
  · rw [if_pos hneg] at h
    cases h
    exact ⟨rfl, .inl ⟨rfl, rfl, .inl hneg⟩⟩
  · rw [if_neg hneg] at h
    obtain ⟨grown, hgrown, hrest⟩ := Outcome.bind_eq_returned.1 h
    cases grown with
    | none =>
      cases hrest
      exact ⟨rfl, .inl ⟨rfl, rfl, .inr (.inl (mapFor_none hgrown))⟩⟩
    | some map =>
      obtain ⟨hentry, hlt⟩ := mapFor_spec hgrown
      simp only at hrest
      by_cases hnone : map.entry (env.channels channel).fd = none
      · rw [if_pos hnone] at hrest
        obtain ⟨dispatcher, hadd, hdone⟩ := Outcome.bind_eq_returned.1 hrest
        cases hdone
        refine ⟨rfl, .inr ⟨by omega, hentry ▸ hnone, ?_, hadd⟩⟩
        rw [ChannelMap.entry_set (by omega) hlt, hentry]
      · rw [if_neg hnone] at hrest
        cases hrest
        exact ⟨rfl, .inl ⟨hentry, rfl, .inr (.inr (hentry ▸ hnone))⟩⟩

/-- A remove request is for a descriptor outside the map, or takes out what is entered for
it. -/
lemma handlePendingRemove_cases (h : handlePendingRemove env loop channel = .returned loop') :
    loop'.pending = loop.pending ∧
    (loop.channelMap.entry (env.channels channel).fd = none ∧ loop' = loop ∨
      ∃ channel2, loop.channelMap.entry (env.channels channel).fd = some channel2 ∧
        loop'.channelMap.entry =
          Function.update loop.channelMap.entry (env.channels channel).fd none ∧
        loop.eventDispatcher.del (env.channels channel2) = .returned loop'.eventDispatcher) := by
  unfold handlePendingRemove at h
  by_cases hneg : (env.channels channel).fd < 0
  · rw [if_pos hneg] at h
    cases h
    exact ⟨rfl, .inl ⟨ChannelMap.entry_of_neg hneg, rfl⟩⟩
  rw [if_neg hneg] at h
  by_cases hge : (env.channels channel).fd ≥ loop.channelMap.nentries
  · rw [if_pos hge] at h
    cases h
    exact ⟨rfl, .inl ⟨ChannelMap.entry_of_nentries_le hge, rfl⟩⟩
  rw [if_neg hge] at h
  cases hentry : loop.channelMap.entry (env.channels channel).fd with
  | none => simp [hentry] at h
  | some channel2 =>
    simp only [hentry] at h
    obtain ⟨dispatcher, hdel, hdone⟩ := Outcome.bind_eq_returned.1 h
    cases hdone
    refine ⟨rfl, .inr ⟨channel2, rfl, ?_, hdel⟩⟩
    exact ChannelMap.entry_set (by omega) (by omega) none

/-- An update request leaves the map alone. -/
lemma handlePendingUpdate_cases (h : handlePendingUpdate env loop channel = .returned loop') :
    loop'.pending = loop.pending ∧ loop'.channelMap = loop.channelMap ∧
    (loop'.eventDispatcher = loop.eventDispatcher ∨
      0 ≤ (env.channels channel).fd ∧
      loop.channelMap.entry (env.channels channel).fd ≠ none ∧
        loop.eventDispatcher.update (env.channels channel) =
          .returned loop'.eventDispatcher) := by
  simp only [handlePendingUpdate] at h
  split_ifs at h with hneg hge hnone
  · cases h
    exact ⟨rfl, rfl, .inl rfl⟩
  · cases h
    exact ⟨rfl, rfl, .inl rfl⟩
  · obtain ⟨dispatcher, hupdate, hdone⟩ := Outcome.bind_eq_returned.1 h
    cases hdone
    exact ⟨rfl, rfl, .inr ⟨by omega, hnone, hupdate⟩⟩

end Handlers

end Yolanda
