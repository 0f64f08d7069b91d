import CPYuZe.Library.SlotTable
import CPYuZe.Yolanda.EventLoop

/-!
# The table of `poll_dispatcher`

`poll_add`, `poll_del` and `poll_update` find their slot by a search from the front, so the
place of a descriptor depends on everything that was added and deleted before.  What the table
stands for does not: it is to hold the finite map that insertion, deletion and overwriting
make, which is what `epoll_ctl` is asked to keep.

The three run here in lockstep.  `watched` is the map, from descriptors to the channels they
were last added or updated with, `eventSet` is the array and `interest` is what the kernel has
been told.  A call is legal if it is an add for a descriptor that is not negative and not in the
map, or one of the other two for a descriptor that is; the requests of an event loop lead to no
other calls (`Follows.run`).

An add that finds no free slot is only logged: `yolanda_log` comes back, and so does
`poll_add`, with the value it also returns when it has added something.  `polled_iff` says that
this is all that can go wrong.
-/

namespace Yolanda

namespace PollTable

open SlotTable

/-- What a slot of the array stands for. -/
def readSlot (slot : PollFd) : Option (ℤ × BitVec 16) :=
  if slot.fd < 0 then none else some (slot.fd, slot.events)

/-- The descriptors of the array that are not negative, with their masks. -/
def polled (eventSet : ℕ → PollFd) : Multiset (ℤ × BitVec 16) :=
  pairs readSlot initPollSize eventSet

structure Tables where
  watched : Finmap fun _ : ℤ => Channel
  eventSet : ℕ → PollFd
  interest : ℤ → Option (BitVec 32)

inductive Op
  | add (channel : Channel)
  | del (channel : Channel)
  | update (channel : Channel)
  deriving DecidableEq, Repr

namespace Tables

def start (eventSet : ℕ → PollFd) : Tables := ⟨∅, eventSet, fun _ => none⟩

/-- The kernel is asked about open descriptors only. -/
def step (t : Tables) : Op → Call Tables
  | .add channel => do
    let interest ← epollAdd (fun _ => true) t.interest channel
    pure ⟨t.watched.insert channel.fd channel, pollAdd t.eventSet channel, interest⟩
  | .del channel => do
    let interest ← epollDel t.interest channel
    pure ⟨t.watched.erase channel.fd, pollDel t.eventSet channel, interest⟩
  | .update channel => do
    let interest ← epollUpdate t.interest channel
    pure ⟨t.watched.insert channel.fd channel, pollUpdate t.eventSet channel, interest⟩

def Legal (t : Tables) : Op → Prop
  | .add channel => 0 ≤ channel.fd ∧ channel.fd ∉ t.watched
  | .del channel => channel.fd ∈ t.watched
  | .update channel => channel.fd ∈ t.watched

/-- An add comes when there are fewer descriptors than slots. -/
def HasRoom (t : Tables) : Op → Prop
  | .add _ => t.watched.keys.card < initPollSize
  | _ => True

/-- Both dispatchers have what the map has, the array with one slot for each descriptor. -/
structure Represented (t : Tables) : Prop where
  polled : polled t.eventSet = graph pollEvents t.watched
  once : ∀ fd ∈ t.watched, ∃! i, i < initPollSize ∧ (t.eventSet i).fd = fd
  asked : ∀ fd, t.interest fd = (t.watched.lookup fd).map epollEvents

def RepresentedAfter (t : Tables) (op : Op) : Prop :=
  ∃ t', t.step op = .returned t' ∧ t'.Represented

end Tables

/-! ## What the calls do to the slots -/

section Slots

variable {slot : PollFd} {eventSet : ℕ → PollFd} {channel : Channel}

lemma readSlot_eq_none : readSlot slot = none ↔ slot.fd < 0 := by
  simp [readSlot]

lemma readSlot_eq_some {fd : ℤ} {mask : BitVec 16} :
    readSlot slot = some (fd, mask) ↔ 0 ≤ fd ∧ slot.fd = fd ∧ slot.events = mask := by
  unfold readSlot
  split_ifs with hneg
  · simp only [false_iff]
    omega
  · simp only [Option.some.injEq, Prod.mk.injEq, iff_and_self, and_imp]
    omega

lemma polled_pollAdd (hnonneg : 0 ≤ channel.fd) (hroom : (polled eventSet).card < initPollSize) :
    polled (pollAdd eventSet channel) = (channel.fd, pollEvents channel) ::ₘ polled eventSet := by
  unfold pollAdd
  cases hfind : findSlot eventSet fun slot => decide (slot.fd < 0) with
  | none =>
    obtain ⟨i, hi, hfree⟩ := exists_free hroom
    have htaken := findSlot_none hfind hi
    simp [readSlot_eq_none.1 hfree] at htaken
  | some i =>
    obtain ⟨hi, hfree⟩ := findSlot_some hfind
    refine pairs_fill hi (readSlot_eq_none.2 (by simpa using hfree)) ?_
    exact readSlot_eq_some.2 ⟨hnonneg, rfl, rfl⟩

/-- The search for a descriptor that is in the table ends at a slot it has. -/
lemma exists_findSlot {fd : ℤ} {mask : BitVec 16} (h : (fd, mask) ∈ polled eventSet) :
    0 ≤ fd ∧ ∃ i < initPollSize,
      findSlot eventSet (fun slot => decide (slot.fd = fd)) = some i ∧ (eventSet i).fd = fd := by
  obtain ⟨j, hj, hread⟩ := mem_pairs.1 h
  obtain ⟨hnonneg, hfdj, -⟩ := readSlot_eq_some.1 hread
  refine ⟨hnonneg, ?_⟩
  cases hfind : findSlot eventSet fun slot => decide (slot.fd = fd) with
  | none =>
    have hnot := findSlot_none hfind hj
    simp [hfdj] at hnot
  | some i =>
    obtain ⟨hi, hfound⟩ := findSlot_some hfind
    exact ⟨i, hi, rfl, by simpa using hfound⟩

lemma polled_pollDel {mask : BitVec 16} (h : (channel.fd, mask) ∈ polled eventSet) :
    ∃ mask', polled eventSet = (channel.fd, mask') ::ₘ polled (pollDel eventSet channel) := by
  obtain ⟨hnonneg, i, hi, hfind, hfd⟩ := exists_findSlot h
  have hread : readSlot (eventSet i) = some (channel.fd, (eventSet i).events) :=
    readSlot_eq_some.2 ⟨hnonneg, hfd, rfl⟩
  refine ⟨(eventSet i).events, ?_⟩
  unfold pollDel
  rw [hfind]
  exact pairs_clear hi hread (readSlot_eq_none.2 (by simp))

lemma polled_pollUpdate {mask : BitVec 16} (h : (channel.fd, mask) ∈ polled eventSet) :
    ∃ mask', (channel.fd, mask') ∈ polled eventSet ∧
      (channel.fd, mask') ::ₘ polled (pollUpdate eventSet channel) =
        (channel.fd, pollEvents channel) ::ₘ polled eventSet := by
  obtain ⟨hnonneg, i, hi, hfind, hfd⟩ := exists_findSlot h
  have hread : readSlot (eventSet i) = some (channel.fd, (eventSet i).events) :=
    readSlot_eq_some.2 ⟨hnonneg, hfd, rfl⟩
  refine ⟨(eventSet i).events, mem_pairs.2 ⟨i, hi, hread⟩, ?_⟩
  unfold pollUpdate
  rw [hfind]
  exact pairs_exchange hi hread (readSlot_eq_some.2 ⟨hnonneg, hfd, rfl⟩)

end Slots

namespace Tables

variable {t t' : Tables} {op : Op} {eventSet : ℕ → PollFd}

/-! ## What the calls do to a table that represents the map -/

section Asked

variable {channel : Channel} (h : ∀ fd, t.interest fd = (t.watched.lookup fd).map epollEvents)

include h

lemma asked_insert (fd : ℤ) :
    Function.update t.interest channel.fd (some (epollEvents channel)) fd =
      ((t.watched.insert channel.fd channel).lookup fd).map epollEvents := by
  by_cases hfd : fd = channel.fd
  · rw [hfd, Function.update_self, Finmap.lookup_insert]
    rfl
  · rw [Function.update_of_ne hfd, Finmap.lookup_insert_of_ne _ hfd, h]

lemma asked_erase (fd : ℤ) :
    Function.update t.interest channel.fd none fd =
      ((t.watched.erase channel.fd).lookup fd).map epollEvents := by
  by_cases hfd : fd = channel.fd
  · rw [hfd, Function.update_self, Finmap.lookup_erase]
    rfl
  · rw [Function.update_of_ne hfd, Finmap.lookup_erase_ne hfd, h]

/-- The kernel serves an add for a descriptor that is not in the map. -/
lemma step_add (hfree : channel.fd ∉ t.watched) :
    t.step (.add channel) = .returned ⟨t.watched.insert channel.fd channel,
      pollAdd t.eventSet channel,
      Function.update t.interest channel.fd (some (epollEvents channel))⟩ := by
  have hnone : t.interest channel.fd = none := by
    rw [h, Finmap.lookup_eq_none.2 hfree, Option.map_none]
  rw [step, epollAdd, if_pos ⟨rfl, hnone⟩]
  rfl

lemma interest_isSome (hmem : channel.fd ∈ t.watched) :
    (t.interest channel.fd).isSome = true := by
  rw [h, Option.isSome_map]
  exact Finmap.lookup_isSome.2 hmem

lemma step_del (hmem : channel.fd ∈ t.watched) :
    t.step (.del channel) = .returned ⟨t.watched.erase channel.fd, pollDel t.eventSet channel,
      Function.update t.interest channel.fd none⟩ := by
  rw [step, epollDel, if_pos (interest_isSome h hmem)]
  rfl

lemma step_update (hmem : channel.fd ∈ t.watched) :
    t.step (.update channel) = .returned ⟨t.watched.insert channel.fd channel,
      pollUpdate t.eventSet channel,
      Function.update t.interest channel.fd (some (epollEvents channel))⟩ := by
  rw [step, epollUpdate, if_pos (interest_isSome h hmem)]
  rfl

end Asked

/-- A descriptor of the map has a pair in the array. -/
lemma Represented.mem_polled (h : t.Represented) {fd : ℤ} (hfd : fd ∈ t.watched) :
    ∃ mask, (fd, mask) ∈ PollTable.polled t.eventSet := by
  obtain ⟨channel, hlookup⟩ := Finmap.mem_iff.1 hfd
  rw [h.polled]
  exact ⟨pollEvents channel, mem_graph.2 ⟨channel, hlookup, rfl⟩⟩

/-- That every descriptor has one slot follows, since the map has one pair for it. -/
lemma represented_of_polled (hpolled : PollTable.polled t.eventSet = graph pollEvents t.watched)
    (hasked : ∀ fd, t.interest fd = (t.watched.lookup fd).map epollEvents) : t.Represented where
  polled := hpolled
  asked := hasked
  once := by
    intro fd hfd
    obtain ⟨channel, hlookup⟩ := Finmap.mem_iff.1 hfd
    have hmem : (fd, pollEvents channel) ∈ PollTable.polled t.eventSet := by
      rw [hpolled]
      exact mem_graph.2 ⟨channel, hlookup, rfl⟩
    have hkeys : ((PollTable.polled t.eventSet).map Prod.fst).Nodup := by
      rw [hpolled, map_fst_graph]
      exact t.watched.keys.nodup
    have hnonneg := (exists_findSlot hmem).1
    have hread : ∀ i, (t.eventSet i).fd = fd ↔
        ∃ mask, readSlot (t.eventSet i) = some (fd, mask) := by
      simp [readSlot_eq_some, hnonneg]
    simp only [hread]
    exact existsUnique_slot hkeys hmem

/-- A full array has one pair less than the map after an add. -/
lemma not_representedAfter_add {channel : Channel} (hfree : channel.fd ∉ t.watched)
    (hfull : initPollSize ≤ t.watched.keys.card) : ¬ t.RepresentedAfter (.add channel) := by
  rintro ⟨t', hstep, h⟩
  obtain ⟨interest, -, hdone⟩ := Outcome.bind_eq_returned.1 hstep
  cases hdone
  have hcard := congrArg Multiset.card h.polled
  dsimp only at hcard
  rw [graph_insert hfree, Multiset.card_cons, card_graph] at hcard
  have hle : (PollTable.polled (pollAdd t.eventSet channel)).card ≤ initPollSize := card_pairs_le
  rw [hcard] at hle
  omega

lemma representedAfter_add (h : t.Represented) {channel : Channel} (hnonneg : 0 ≤ channel.fd)
    (hfree : channel.fd ∉ t.watched) (hroom : t.watched.keys.card < initPollSize) :
    t.RepresentedAfter (.add channel) := by
  have hcard : (PollTable.polled t.eventSet).card < initPollSize := by
    rwa [h.polled, card_graph]
  refine ⟨_, step_add h.asked hfree, represented_of_polled ?_ (asked_insert h.asked)⟩
  rw [polled_pollAdd hnonneg hcard, h.polled, graph_insert hfree]

lemma representedAfter_del (h : t.Represented) {channel : Channel}
    (hmem : channel.fd ∈ t.watched) : t.RepresentedAfter (.del channel) := by
  refine ⟨_, step_del h.asked hmem, represented_of_polled ?_ (asked_erase h.asked)⟩
  obtain ⟨mask, hmask⟩ := h.mem_polled hmem
  obtain ⟨mask', hdel⟩ := polled_pollDel hmask
  have hgraph : (channel.fd, mask') ∈ graph pollEvents t.watched := by
    rw [← h.polled, hdel]
    exact Multiset.mem_cons_self _ _
  rw [h.polled, graph_erase hgraph, Multiset.cons_inj_right] at hdel
  dsimp only
  exact hdel.symm

lemma representedAfter_update (h : t.Represented) {channel : Channel}
    (hmem : channel.fd ∈ t.watched) : t.RepresentedAfter (.update channel) := by
  refine ⟨_, step_update h.asked hmem, represented_of_polled ?_ (asked_insert h.asked)⟩
  obtain ⟨mask, hmask⟩ := h.mem_polled hmem
  obtain ⟨mask', hmask', hupdate⟩ := polled_pollUpdate hmask
  rw [h.polled] at hmask' hupdate
  rw [graph_erase hmask', Multiset.cons_swap, Multiset.cons_inj_right] at hupdate
  dsimp only
  rw [graph_overwrite]
  exact hupdate

/-- A legal call keeps the table true to the map, unless it is an add to a full one. -/
lemma representedAfter_iff (h : t.Represented) (hlegal : t.Legal op) :
    t.RepresentedAfter op ↔ t.HasRoom op := by
  cases op with
  | add channel =>
    refine ⟨fun hafter => ?_, representedAfter_add h hlegal.1 hlegal.2⟩
    by_contra hfull
    exact not_representedAfter_add hlegal.2 (not_lt.1 hfull) hafter
  | del channel => exact iff_of_true (representedAfter_del h hlegal) trivial
  | update channel => exact iff_of_true (representedAfter_update h hlegal) trivial

lemma represented_start (hinit : ∀ i < initPollSize, (eventSet i).fd = -1) :
    (start eventSet).Represented := by
  refine represented_of_polled ?_ fun fd => rfl
  show PollTable.polled eventSet = 0
  rw [Multiset.eq_zero_iff_forall_notMem]
  intro p hp
  obtain ⟨i, hi, hread⟩ := mem_pairs.1 hp
  obtain ⟨hnonneg, hfd, -⟩ := readSlot_eq_some.1 hread
  rw [hinit i hi] at hfd
  omega

/-! ## The calls of the event loop -/

/-- The loop has the array for its dispatcher, and the channel map has an entry for just the
descriptors of the map. -/
structure Follows (env : Surroundings) (loop : EventLoop) (t : Tables) : Prop where
  dispatcher : loop.eventDispatcher = .poll t.eventSet
  entered : ∀ fd, fd ∈ t.watched ↔ loop.channelMap.entry fd ≠ none
  entry_fd : ∀ fd channel, loop.channelMap.entry fd = some channel →
    (env.channels channel).fd = fd
  asked : ∀ fd, t.interest fd = (t.watched.lookup fd).map epollEvents

/-- The loop follows the tables, or those that one legal call leads to. -/
def FollowsAfter (env : Surroundings) (loop : EventLoop) (t : Tables) : Prop :=
  Follows env loop t ∨ ∃ op t', t.Legal op ∧ t.step op = .returned t' ∧ Follows env loop t'

namespace Follows

variable {env : Surroundings} {loop loop' : EventLoop} {channel : ChannelPtr}

lemma of_kept (h : Follows env loop t)
    (hentry : loop'.channelMap.entry = loop.channelMap.entry)
    (hdispatcher : loop'.eventDispatcher = loop.eventDispatcher) : Follows env loop' t where
  dispatcher := hdispatcher.trans h.dispatcher
  entered := by
    rw [hentry]
    exact h.entered
  entry_fd := by
    rw [hentry]
    exact h.entry_fd
  asked := h.asked

lemma handlePendingAdd (h : Follows env loop t)
    (hstep : handlePendingAdd env loop channel = .returned loop') : FollowsAfter env loop' t := by
  obtain ⟨-, ⟨hentry, hdispatcher, -⟩ | ⟨hnonneg, hnone, hentry, hadd⟩⟩ :=
    handlePendingAdd_cases hstep
  · exact .inl (h.of_kept hentry hdispatcher)
  · have hfree : (env.channels channel).fd ∉ t.watched := by
      rw [h.entered]
      exact not_not.2 hnone
    refine .inr ⟨.add (env.channels channel), _, ⟨hnonneg, hfree⟩, step_add h.asked hfree, ?_⟩
    rw [h.dispatcher] at hadd
    refine ⟨?_, ?_, ?_, asked_insert h.asked⟩
    · dsimp only
      exact (Outcome.returned.inj hadd).symm
    · intro fd
      rw [Finmap.mem_insert, h.entered, hentry, Function.update_apply]
      split_ifs with hfd <;> simp [hfd]
    · intro fd channel' hchannel'
      rw [hentry, Function.update_apply] at hchannel'
      split_ifs at hchannel' with hfd
      · cases hchannel'
        exact hfd.symm
      · exact h.entry_fd fd channel' hchannel'

lemma handlePendingRemove (h : Follows env loop t)
    (hstep : handlePendingRemove env loop channel = .returned loop') :
    FollowsAfter env loop' t := by
  obtain ⟨-, ⟨-, rfl⟩ | ⟨channel2, htaken, hentry, hdel⟩⟩ := handlePendingRemove_cases hstep
  · exact .inl h
  · have hfd2 := h.entry_fd _ _ htaken
    have hmem : (env.channels channel2).fd ∈ t.watched := by
      rw [hfd2, h.entered, htaken]
      exact Option.some_ne_none _
    refine .inr ⟨.del (env.channels channel2), _, hmem, step_del h.asked hmem, ?_⟩
    rw [h.dispatcher] at hdel
    refine ⟨?_, ?_, ?_, asked_erase h.asked⟩
    · dsimp only
      exact (Outcome.returned.inj hdel).symm
    · intro fd
      rw [Finmap.mem_erase, h.entered, hentry, Function.update_apply, hfd2]
      split_ifs with hfd <;> simp [hfd]
    · intro fd channel' hchannel'
      rw [hentry, Function.update_apply] at hchannel'
      split_ifs at hchannel' with hfd
      exact h.entry_fd fd channel' hchannel'

lemma handlePendingUpdate (h : Follows env loop t)
    (hstep : handlePendingUpdate env loop channel = .returned loop') :
    FollowsAfter env loop' t := by
  obtain ⟨-, hmap, hdispatcher | ⟨-, htaken, hupdate⟩⟩ := handlePendingUpdate_cases hstep
  · exact .inl (h.of_kept (congrArg ChannelMap.entry hmap) hdispatcher)
  · have hmem : (env.channels channel).fd ∈ t.watched := (h.entered _).2 htaken
    refine .inr ⟨.update (env.channels channel), _, hmem, step_update h.asked hmem, ?_⟩
    rw [h.dispatcher] at hupdate
    refine ⟨?_, ?_, ?_, asked_insert h.asked⟩
    · dsimp only
      exact (Outcome.returned.inj hupdate).symm
    · intro fd
      rw [Finmap.mem_insert, h.entered, hmap]
      refine or_iff_right_of_imp ?_
      rintro rfl
      exact htaken
    · rw [hmap]
      exact h.entry_fd

/-- A request that is handled leads to one legal call at most. -/
lemma handleElement {e : ChannelElement} (h : Follows env loop t)
    (hstep : handleElement env loop e = .returned loop') : FollowsAfter env loop' t := by
  obtain ⟨type, channel⟩ := e
  cases type with
  | add => exact h.handlePendingAdd hstep
  | remove => exact h.handlePendingRemove hstep
  | update => exact h.handlePendingUpdate hstep

/-- Whatever requests the event loop handles, its calls are a legal sequence. -/
theorem run {es : List ChannelElement} (h : Follows env loop t)
    (hrun : Outcome.run (Yolanda.handleElement env) loop es = .returned loop') :
    ∃ ops t', Outcome.Throughout step Legal t ops ∧ Outcome.run step t ops = .returned t' ∧
      Follows env loop' t' := by
  induction es generalizing loop t with
  | nil =>
    cases hrun
    exact ⟨[], t, trivial, rfl, h⟩
  | cons e es ih =>
    obtain ⟨loop₁, he, hes⟩ := Outcome.run_cons_eq_returned.1 hrun
    rcases h.handleElement he with h₁ | ⟨op, t₁, hlegal, hstep, h₁⟩
    · exact ih h₁ hes
    · obtain ⟨ops, t', hops, hrun', h'⟩ := ih h₁ hes
      refine ⟨op :: ops, t', ?_, ?_, h'⟩
      · exact (Outcome.throughout_cons_returned hstep ops).2 ⟨hlegal, hops⟩
      · rw [Outcome.run_cons_returned hstep, hrun']

end Follows

/-! ## Whole sequences of calls -/

/-- After every call of a legal sequence the array has the pairs of the map, each descriptor in
one slot, exactly when no add comes while the map has as many descriptors as there are slots. -/
theorem polled_iff (eventSet : ℕ → PollFd) (hinit : ∀ i < initPollSize, (eventSet i).fd = -1)
    (ops : List Op) (hlegal : Outcome.Throughout step Legal (start eventSet) ops) :
    Outcome.Throughout step RepresentedAfter (start eventSet) ops ↔
      Outcome.Throughout step HasRoom (start eventSet) ops := by
  refine hlegal.iff (fun t op => representedAfter_iff) ?_ (represented_start hinit)
  rintro t op t' - - ⟨t₁, hstep₁, h⟩ hstep
  cases hstep₁.symm.trans hstep
  exact h

def readChannel (fd : ℤ) : Channel :=
  channelNew fd eventRead (some .handleRead) none (.tcpConnection 0)

/-- A descriptor is added, updated and deleted. -/
theorem polled_iff_once :
    Outcome.Throughout step RepresentedAfter (start fun _ => ⟨-1, 0#16, 0#16⟩)
        [.add (readChannel 5), .update (readChannel 5), .del (readChannel 5)] ↔
      Outcome.Throughout step HasRoom (start fun _ => ⟨-1, 0#16, 0#16⟩)
        [.add (readChannel 5), .update (readChannel 5), .del (readChannel 5)] := by
  apply polled_iff _ fun _ _ => rfl
  refine (Outcome.throughout_cons_returned rfl _).2 ⟨⟨by decide, Finmap.notMem_empty⟩, ?_⟩
  refine (Outcome.throughout_cons_returned rfl _).2 ⟨Finmap.mem_insert.2 (.inl rfl), ?_⟩
  exact ⟨Finmap.mem_insert.2 (.inl rfl), fun _ _ => trivial⟩

/-! ## More connections than slots -/

/-- Adds of `n` descriptors from `k` on. -/
def addsFrom (k n : ℕ) : List Op := (List.range' k n).map fun fd : ℕ => .add (readChannel fd)

/-- The descriptors below `k` have been added. -/
structure Filled (t : Tables) (k : ℕ) : Prop where
  mem : ∀ fd : ℤ, fd ∈ t.watched ↔ 0 ≤ fd ∧ fd < k
  card : t.watched.keys.card = k
  asked : ∀ fd, t.interest fd = (t.watched.lookup fd).map epollEvents

lemma filled_start : Filled (start eventSet) 0 where
  mem fd := by
    refine iff_of_false Finmap.notMem_empty ?_
    omega
  card := rfl
  asked _ := rfl

lemma Filled.notMem {k : ℕ} (h : Filled t k) : (readChannel k).fd ∉ t.watched := by
  rw [h.mem]
  exact fun hlt => lt_irrefl _ hlt.2

lemma Filled.step {k : ℕ} (h : Filled t k) :
    ∃ t', t.step (.add (readChannel k)) = .returned t' ∧ Filled t' (k + 1) := by
  refine ⟨_, step_add h.asked h.notMem, ?_, ?_, asked_insert h.asked⟩
  · intro fd
    rw [Finmap.mem_insert, h.mem]
    show fd = (k : ℤ) ∨ _ ↔ _
    omega
  · dsimp only
    rw [card_keys_insert h.notMem, h.card]

lemma addsFrom_succ (k n : ℕ) :
    addsFrom k (n + 1) = .add (readChannel k) :: addsFrom (k + 1) n := by
  rw [addsFrom, List.range'_succ, List.map_cons, addsFrom]

lemma addsFrom_legal {n : ℕ} : ∀ {k : ℕ} {t : Tables}, Filled t k →
    Outcome.Throughout step Legal t (addsFrom k n) := by
  induction n with
  | zero => exact fun _ => trivial
  | succ n ih =>
    intro k t h
    obtain ⟨t', hstep, h'⟩ := h.step
    rw [addsFrom_succ, Outcome.throughout_cons_returned hstep]
    exact ⟨⟨Int.natCast_nonneg k, h.notMem⟩, ih h'⟩

/-- The add that comes to a full array is lost. -/
lemma addsFrom_lost {n : ℕ} : ∀ {k : ℕ} {t : Tables}, Filled t k → k ≤ initPollSize →
    initPollSize < k + n → ¬ Outcome.Throughout step RepresentedAfter t (addsFrom k n) := by
  induction n with
  | zero =>
    intro k t _ hle hlt
    omega
  | succ n ih =>
    intro k t h hle hlt hall
    obtain ⟨t', hstep, h'⟩ := h.step
    rw [addsFrom_succ, Outcome.throughout_cons_returned hstep] at hall
    by_cases hfull : k = initPollSize
    · exact not_representedAfter_add h.notMem (by rw [h.card, hfull]) hall.1
    · exact ih h' (by omega) (by omega) hall.2

/-- One descriptor more than there are slots. -/
theorem not_polled_full :
    ¬ ∀ eventSet : ℕ → PollFd, (∀ i < initPollSize, (eventSet i).fd = -1) → ∀ ops : List Op,
      Outcome.Throughout step Legal (start eventSet) ops →
        Outcome.Throughout step RepresentedAfter (start eventSet) ops := by
  intro h
  have hfilled : Filled (start fun _ => ⟨-1, 0#16, 0#16⟩) 0 := filled_start
  refine addsFrom_lost hfilled (Nat.zero_le _) (n := initPollSize + 1) ?_ ?_
  · omega
  · exact h _ (fun _ _ => rfl) _ (addsFrom_legal hfilled)

end Tables

end PollTable

end Yolanda
