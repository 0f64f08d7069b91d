import CPYuZe.Yolanda.Registration

/-!
# Which channels a round activates

A round works through a ready set that was taken before any of its callbacks ran.  An
activation is *live* when it finds a channel in the map, runs the callbacks of that channel,
and that very channel was in the map and reported ready for the event when the ready set was
taken.

Three things go wrong with activations that are not live.  After a descriptor has been removed
the activation follows a `NULL` entry; `epoll_dispatch` and `poll_dispatch` both make the write
activation of an event after its read activation, whatever the latter did.  After a descriptor
has been removed and added again the activation runs callbacks of another channel.  And
`poll_add` reuses the slot of a removed descriptor without clearing `revents`, so that
`poll_dispatch` finds a channel ready that `poll` never looked at.  They have one cause:
a request that adds or removes the descriptor has been handled since the ready set was taken
(`Touched`).  `activation_live_iff` says that there is no other.
-/

namespace Yolanda

namespace System

/-- The channel map when the last ready set was taken. -/
def atWait : List Happening → ℤ → Option ChannelPtr
  | [] => fun _ => none
  | .waited entry _ :: _ => entry
  | .handled _ _ _ :: past => atWait past
  | .closed _ :: past => atWait past
  | .called _ _ :: past => atWait past

/-- The last ready set. -/
def readyAtWait : List Happening → List (ℤ × BitVec 32)
  | [] => []
  | .waited _ ready :: _ => ready
  | .handled _ _ _ :: past => readyAtWait past
  | .closed _ :: past => readyAtWait past
  | .called _ _ :: past => readyAtWait past

/-- An add or a remove request for the descriptor has been handled since the ready set was
taken. -/
def Touched : List Happening → ℤ → Prop
  | [], _ => False
  | .waited _ _ :: _, _ => False
  | .handled type fd' _ :: past, fd => type ≠ .update ∧ fd' = fd ∨ Touched past fd
  | .closed _ :: past, fd => Touched past fd
  | .called _ _ :: past, fd => Touched past fd

/-- The next step of the round comes back, and the callbacks it runs are those of a channel
that is in the map now, was in the map when the ready set was taken, and was then reported
ready for this event. -/
def Live (s : System) (fd : ℤ) (revents : BitVec 32) : Prop :=
  ∃ s' channel, ∃ calls : List Callback, s.step .next = .returned s' ∧
    s'.history = calls.map (.called channel) ++ s.history ∧
    s.entry fd = some channel ∧ atWait s.history fd = some channel ∧
    (fd, revents) ∈ readyAtWait s.history

section History

variable (calls : List (ChannelPtr × Callback)) (past : List Happening)

lemma atWait_called :
    atWait (calls.map (fun c => .called c.1 c.2) ++ past) = atWait past := by
  induction calls with
  | nil => rfl
  | cons c calls ih => exact ih

lemma readyAtWait_called :
    readyAtWait (calls.map (fun c => .called c.1 c.2) ++ past) = readyAtWait past := by
  induction calls with
  | nil => rfl
  | cons c calls ih => exact ih

lemma touched_called :
    Touched (calls.map (fun c => .called c.1 c.2) ++ past) = Touched past := by
  induction calls with
  | nil => rfl
  | cons c calls ih => exact ih

end History

/-- A channel that is in the map under its own descriptor is activated. -/
lemma channelEventActivate_returns {s : System} {fd : ℤ} {channel : ChannelPtr}
    (hentry : s.entry fd = some channel) (hfd : s.fdOf channel = fd) (revents : BitVec 32) :
    s.channelEventActivate fd revents = .returned { s with
      history := ((callbacksFor (s.channels channel) revents).map (.called channel)).reverse
        ++ s.history } := by
  have hnonneg : ¬ fd < 0 := by
    intro hneg
    rw [entry, ChannelMap.entry_of_neg hneg] at hentry
    cases hentry
  have hlt : ¬ fd ≥ s.loop.channelMap.nentries := by
    intro hge
    rw [entry, ChannelMap.entry_of_nentries_le hge] at hentry
    cases hentry
  simp only [channelEventActivate]
  rw [if_neg hnonneg, if_neg hlt]
  simp only [hentry]
  rw [if_pos hfd.symm]

/-- What an activation needs to be live. -/
lemma live_of_entry {s : System} {rest : List ChannelElement} (h : Queued s rest) {fd : ℤ}
    {revents : BitVec 32} {todo : List Task} (htodo : s.todo = .activate fd revents :: todo)
    (hwait : atWait s.history fd ≠ none) (hentry : s.entry fd = atWait s.history fd)
    (hready : (fd, revents) ∈ readyAtWait s.history) : s.Live fd revents := by
  obtain ⟨channel, hchannel⟩ := Option.ne_none_iff_exists'.1 hwait
  rw [hchannel] at hentry
  have hfd := (h.entry_fd fd channel hentry).1
  have hstep : s.step .next =
      ({ s with todo := todo } : System).channelEventActivate fd revents := by
    simp only [step, htodo, perform]
  rw [channelEventActivate_returns (s := { s with todo := todo }) hentry hfd revents] at hstep
  refine ⟨_, channel, (callbacksFor (s.channels channel) revents).reverse, hstep, ?_, hentry,
    hchannel, hready⟩
  rw [List.map_reverse]

lemma not_live_of_entry {s : System} {fd : ℤ} {revents : BitVec 32}
    (hentry : s.entry fd = none) : ¬ s.Live fd revents := by
  rintro ⟨_, channel, _, _, _, hsome, _⟩
  rw [hentry] at hsome
  cases hsome

/-- The entry of a descriptor that had one when the ready set was taken: it is what it was, or
a request has taken it out. -/
structure KeptSince (s : System) (fd : ℤ) : Prop where
  wasEntered : atWait s.history fd ≠ none
  of_touched : Touched s.history fd → s.entry fd = none
  of_not_touched : ¬ Touched s.history fd → s.entry fd = atWait s.history fd

namespace KeptSince

variable {s s' : System} {fd : ℤ} {e : ChannelElement}

lemma of_eq (h : KeptSince s fd) (hentry : s'.entry = s.entry)
    (hwait : atWait s'.history = atWait s.history)
    (htouched : Touched s'.history = Touched s.history) : KeptSince s' fd := by
  refine ⟨?_, ?_, ?_⟩
  · rw [hwait]
    exact h.wasEntered
  · rw [htouched, hentry]
    exact h.of_touched
  · rw [htouched, hentry, hwait]
    exact h.of_not_touched

/-- Of the requests that can be handled only a removal concerns the entry. -/
lemma handleElement (h : KeptSince s fd) {served : ℤ → Bool}
    (hadd : e.type = .add → s.fdOf e.channel ≠ fd)
    (hstep : s.handleElement served e = .returned s') : KeptSince s' fd := by
  obtain ⟨hsame, hhistory, heffect⟩ := handleElement_cases hstep
  by_cases hremoves : e.type = .remove ∧ s.fdOf e.channel = fd
  · obtain ⟨htype, hfd⟩ := hremoves
    have htouched : Touched s'.history fd := by
      rw [hhistory, htype]
      exact .inl ⟨nofun, hfd⟩
    have hnone : s'.entry fd = none := by
      cases heffect with
      | kept entry _ _ absent =>
        rw [entry, ← hfd]
        exact absent htype
      | entered type | updated type =>
        rw [htype] at type
        cases type
      | removed _ _ _ entry => rw [entry, ← hfd, Function.update_self]
    refine ⟨?_, fun _ => hnone, fun hnot => absurd htouched hnot⟩
    rw [hhistory]
    exact h.wasEntered
  · have hentry : s'.entry fd = s.entry fd := by
      cases heffect with
      | kept entry | updated _ entry => rw [entry]
      | entered type _ _ entry => rw [entry, Function.update_of_ne (hadd type).symm]
      | removed type _ _ entry =>
        have hne : s.fdOf e.channel ≠ fd := fun hfd => hremoves ⟨type, hfd⟩
        rw [entry, Function.update_of_ne hne.symm]
    have htouched : Touched s'.history fd ↔ Touched s.history fd := by
      rw [hhistory]
      constructor
      · rintro (⟨htype, hfd⟩ | h')
        · cases hcase : e.type with
          | add => exact absurd hfd (hadd hcase)
          | remove => exact absurd ⟨hcase, hfd⟩ hremoves
          | update => exact absurd hcase htype
        · exact h'
      · exact fun h' => .inr h'
    refine ⟨?_, ?_, ?_⟩
    · rw [hhistory]
      exact h.wasEntered
    · rw [htouched, hentry]
      exact h.of_touched
    · rw [htouched, hentry, hhistory]
      exact h.of_not_touched

end KeptSince

/-! ## Rounds of `epoll_dispatch` -/

structure EpollRound (s : System) (rest : List ChannelElement) : Prop
    extends EpollSound s rest where
  kept : ∀ fd ∈ eventFds s.todo ++ activateFds s.todo, KeptSince s fd
  reported : ∀ fd revents, .activate fd revents ∈ s.todo →
    (fd, revents) ∈ readyAtWait s.history
  events_reported : ∀ fd events, .event fd events ∈ s.todo →
    ∀ revents ∈ epollActivations events, (fd, revents) ∈ readyAtWait s.history
  no_count : ∀ i n, .count i n ∉ s.todo

lemma epollRound_init : EpollRound (init (.epoll fun _ => none)) [] where
  toEpollSound := epollSound_init
  kept := by simp [init, eventFds, activateFds]
  reported := by simp [init]
  events_reported := by simp [init]
  no_count := by simp [init]

namespace EpollRound

variable {s s' : System} {rest : List ChannelElement} {e : ChannelElement}

/-- A step that leaves the map and the ready set alone and has no new tasks to do. -/
lemma of_eq {rest' : List ChannelElement} (h : EpollRound s rest) (hs' : EpollSound s' rest')
    (hentry : s'.entry = s.entry) (hwait : atWait s'.history = atWait s.history)
    (hready : readyAtWait s'.history = readyAtWait s.history)
    (htouched : Touched s'.history = Touched s.history)
    (htodo : ∀ task ∈ s'.todo, task ∈ s.todo) : EpollRound s' rest' := by
  refine ⟨hs', ?_, ?_, ?_, fun i n hmem => h.no_count i n (htodo _ hmem)⟩
  · intro fd hfd
    refine (h.kept fd ?_).of_eq hentry hwait htouched
    simp only [List.mem_append, eventFds, activateFds, List.mem_filterMap] at hfd ⊢
    rcases hfd with ⟨task, hmem, hfd⟩ | ⟨task, hmem, hfd⟩
    · exact .inl ⟨task, htodo task hmem, hfd⟩
    · exact .inr ⟨task, htodo task hmem, hfd⟩
  · rw [hready]
    exact fun fd revents hmem => h.reported fd revents (htodo _ hmem)
  · rw [hready]
    exact fun fd events hmem => h.events_reported fd events (htodo _ hmem)

lemma handleElement (h : EpollRound s (e :: rest)) {served : ℤ → Bool}
    (hstep : s.handleElement served e = .returned s') : EpollRound s' rest := by
  have hsound := h.toEpollSound.handleElement hstep
  obtain ⟨hsame, hhistory, -⟩ := handleElement_cases hstep
  have hready : readyAtWait s'.history = readyAtWait s.history := by
    rw [hhistory]
    rfl
  refine ⟨hsound, ?_, ?_, ?_, hsame.todo ▸ h.no_count⟩
  · rw [hsame.todo]
    intro fd hfd
    refine (h.kept fd hfd).handleElement ?_ hstep
    rintro htype rfl
    exact (h.tasks _ hfd).2 (by simp [addsIn_cons_add htype])
  · rw [hready, hsame.todo]
    exact h.reported
  · rw [hready, hsame.todo]
    exact h.events_reported

lemma expand (h : EpollRound s rest) {fd : ℤ} {events : BitVec 32} {todo : List Task}
    (htodo : s.todo = .event fd events :: todo)
    (hs' : EpollSound { s with todo := (epollActivations events).map (.activate fd) ++ todo }
      rest) :
    EpollRound { s with todo := (epollActivations events).map (.activate fd) ++ todo } rest := by
  have hmem : ∀ task ∈ todo, task ∈ s.todo := by
    intro task htask
    rw [htodo]
    exact List.mem_cons_of_mem _ htask
  refine ⟨hs', ?_, ?_, ?_, ?_⟩
  · intro fd' hfd'
    refine KeptSince.of_eq (h.kept fd' ?_) rfl rfl rfl
    rw [htodo]
    rcases List.mem_append.1 hfd' with hin | hin
    · rw [eventFds_map_activate] at hin
      exact List.mem_append_left _ (List.mem_cons_of_mem fd hin)
    · rcases activateFds_map_activate fd _ todo fd' hin with rfl | hin
      · simp [eventFds]
      · exact List.mem_append_right _ hin
  · intro fd' revents hin
    rcases List.mem_append.1 hin with hin | hin
    · obtain ⟨r, hr, heq⟩ := List.mem_map.1 hin
      cases heq
      exact h.events_reported fd events (by simp [htodo]) _ hr
    · exact h.reported fd' revents (hmem _ hin)
  · intro fd' events' hin
    rcases List.mem_append.1 hin with hin | hin
    · obtain ⟨_, _, heq⟩ := List.mem_map.1 hin
      cases heq
    · exact h.events_reported fd' events' (hmem _ hin)
  · intro i n hin
    rcases List.mem_append.1 hin with hin | hin
    · obtain ⟨_, _, heq⟩ := List.mem_map.1 hin
      cases heq
    · exact h.no_count i n (hmem _ hin)

/-- A round begins. -/
lemma epollWait (h : EpollRound s rest) {ready : List (ℤ × BitVec 32)}
    (hs' : EpollSound (s.epollWait ready) rest)
    (hready : ∀ e ∈ ready, s.Watches e.1) : EpollRound (s.epollWait ready) rest := by
  refine ⟨hs', ?_, ?_, ?_, by simp [System.epollWait]⟩
  · intro fd hfd
    simp only [System.epollWait, eventFds_map_event, activateFds_map_event, List.append_nil,
      List.mem_map] at hfd
    obtain ⟨event, hevent, rfl⟩ := hfd
    exact ⟨(h.watched _ (hready event hevent)).1, fun htouched => htouched.elim, fun _ => rfl⟩
  · intro fd revents hin
    obtain ⟨_, _, heq⟩ := List.mem_map.1 hin
    cases heq
  · intro fd events hin revents hrevents
    obtain ⟨event, hevent, heq⟩ := List.mem_map.1 hin
    cases heq
    exact List.mem_flatMap.2 ⟨event, hevent, List.mem_map.2 ⟨revents, hrevents, rfl⟩⟩

theorem step (h : EpollRound s s.loop.pending) {op : Op} (hp : s.Possible op)
    (hstep : s.step op = .returned s') : EpollRound s' s'.loop.pending := by
  have hsound := h.toEpollSound.step hp hstep
  obtain ⟨interest, hepoll⟩ := h.isEpoll
  cases op with
  | accept _ | request _ _ | setEvents _ _ =>
    cases hstep
    exact h.of_eq hsound rfl rfl rfl rfl fun _ htask => htask
  | drain served =>
    refine drain_preserves EpollRound (fun _ _ _ _ hs hs' => hs.handleElement hs') ?_ h hstep
    rintro s s' hs rfl
    refine hs.of_eq ?_ rfl rfl rfl rfl fun _ htask => htask
    exact hs.toEpollSound.of_eq rfl rfl rfl rfl rfl hs.tasks hs.events_nodup hs.disjoint
  | epollWait ready =>
    cases hstep
    refine h.epollWait hsound ?_
    have hready := hp.2.2.2
    rw [hepoll] at hready
    unfold Watches
    rw [hepoll]
    exact hready
  | pollWait revents =>
    rw [System.Possible, hepoll] at hp
    exact hp.2.elim
  | next =>
    cases htodo : s.todo with
    | nil =>
      simp only [System.step, htodo] at hstep
      cases hstep
      exact h
    | cons task todo =>
      have hmem : ∀ task' ∈ todo, task' ∈ s.todo := by
        intro task' htask'
        rw [htodo]
        exact List.mem_cons_of_mem _ htask'
      simp only [System.step, htodo] at hstep
      cases task with
      | event fd events =>
        simp only [perform] at hstep
        split_ifs at hstep with herr
        · cases hstep
          exact h.of_eq hsound rfl rfl rfl rfl hmem
        · cases hstep
          exact h.expand htodo hsound
      | slot i n =>
        have hnone : s.scanSlot i n = [] := by simp [scanSlot, hepoll]
        simp only [perform, hnone, List.nil_append] at hstep
        cases hstep
        exact h.of_eq hsound rfl rfl rfl rfl hmem
      | count i n => exact absurd (by simp [htodo]) (h.no_count i n)
      | activate fd revents =>
        obtain ⟨calls, rfl⟩ := channelEventActivate_cases hstep
        exact h.of_eq hsound rfl (atWait_called calls _) (readyAtWait_called calls _)
          (touched_called calls _) hmem

lemma live_iff (h : EpollRound s rest) {fd : ℤ} {revents : BitVec 32} {todo : List Task}
    (htodo : s.todo = .activate fd revents :: todo) :
    s.Live fd revents ↔ ¬ Touched s.history fd := by
  have hkept := h.kept fd (by simp [htodo, activateFds])
  have hready := h.reported fd revents (by simp [htodo])
  constructor
  · intro hlive htouched
    exact not_live_of_entry (hkept.of_touched htouched) hlive
  · intro hnot
    exact live_of_entry h.toQueued htodo hkept.wasEntered (hkept.of_not_touched hnot) hready

end EpollRound

/-! ## The slots of `poll_dispatcher` -/

section Slots

variable {eventSet : ℕ → PollFd} {channel : Channel}

/-- A slot of the array after an addition is as it was, or it was free and is the new one. -/
lemma pollAdd_slot (eventSet : ℕ → PollFd) (channel : Channel) (i : ℕ) :
    pollAdd eventSet channel i = eventSet i ∨ (pollAdd eventSet channel i).fd = channel.fd := by
  unfold pollAdd
  cases hfind : findSlot eventSet fun slot => decide (slot.fd < 0) with
  | none => exact .inl rfl
  | some k =>
    by_cases hi : i = k
    · subst hi
      simp
    · exact .inl (Function.update_of_ne hi _ _)

/-- An addition takes one slot only. -/
lemma pollAdd_inj {i j : ℕ} (hi : pollAdd eventSet channel i ≠ eventSet i)
    (hj : pollAdd eventSet channel j ≠ eventSet j) : i = j := by
  unfold pollAdd at hi hj
  cases hfind : findSlot eventSet fun slot => decide (slot.fd < 0) with
  | none =>
    simp only [hfind] at hi
    exact absurd rfl hi
  | some k =>
    simp only [hfind] at hi hj
    have hik : i = k := by
      by_contra hne
      exact hi (Function.update_of_ne hne _ _)
    have hjk : j = k := by
      by_contra hne
      exact hj (Function.update_of_ne hne _ _)
    rw [hik, hjk]

/-- A slot after a removal is free, or it is as it was and not the first of the descriptor. -/
lemma pollDel_slot (eventSet : ℕ → PollFd) (channel : Channel) {i : ℕ} (hi : i < initPollSize) :
    (pollDel eventSet channel i).fd = -1 ∨
      pollDel eventSet channel i = eventSet i ∧
        ((eventSet i).fd = channel.fd →
          ∃ k < initPollSize, k ≠ i ∧ (eventSet k).fd = channel.fd) := by
  unfold pollDel
  cases hfind : findSlot eventSet fun slot => decide (slot.fd = channel.fd) with
  | none =>
    refine .inr ⟨rfl, fun hfd => ?_⟩
    have hnone := findSlot_none hfind hi
    simp [hfd] at hnone
  | some k =>
    obtain ⟨hk, hfd⟩ := findSlot_some hfind
    by_cases hik : i = k
    · subst hik
      simp
    · exact .inr ⟨Function.update_of_ne hik _ _, fun _ => ⟨k, hk, Ne.symm hik, by simpa using hfd⟩⟩

lemma pollUpdate_slot (eventSet : ℕ → PollFd) (channel : Channel) (i : ℕ) :
    (pollUpdate eventSet channel i).fd = (eventSet i).fd ∧
      (pollUpdate eventSet channel i).revents = (eventSet i).revents := by
  unfold pollUpdate
  cases findSlot eventSet fun slot => decide (slot.fd = channel.fd) with
  | none => exact ⟨rfl, rfl⟩
  | some k =>
    by_cases hik : i = k
    · subst hik
      simp
    · simp [hik]

lemma mem_pollReady {i : ℕ} (hi : i < initPollSize) {r : BitVec 32}
    (hr : r ∈ pollActivations (eventSet i).revents) :
    ((eventSet i).fd, r) ∈ pollReady eventSet := by
  unfold pollReady
  rw [List.mem_flatMap]
  exact ⟨i, List.mem_range.2 hi, List.mem_map.2 ⟨r, hr, rfl⟩⟩

/-- A round of poll begins with its scan. -/
lemma mem_scan {c : Prop} [Decidable c] {n : ℤ} {task : Task}
    (h : task ∈ if c then [] else [Task.slot 0 n]) : task = .slot 0 n := by
  split_ifs at h
  · cases h
  · exact List.mem_singleton.1 h

end Slots

/-! ## Rounds of `poll_dispatch` -/

/-- The array of the poll dispatcher. -/
def slots (s : System) : ℕ → PollFd :=
  match s.loop.eventDispatcher with
  | .epoll _ => fun _ => ⟨-1, 0#16, 0#16⟩
  | .poll eventSet => eventSet

structure PollRound (s : System) (rest : List ChannelElement) : Prop extends Queued s rest where
  isPoll : s.loop.eventDispatcher = .poll s.slots
  slot_entry : ∀ i < initPollSize, 0 ≤ (s.slots i).fd → s.entry (s.slots i).fd ≠ none
  slots_inj : ∀ i < initPollSize, ∀ j < initPollSize, 0 ≤ (s.slots i).fd →
    (s.slots i).fd = (s.slots j).fd → i = j
  settled : ∀ fd, s.entry fd ≠ none → s.isOpen fd = true ∧ fd ∉ s.addsIn rest
  no_event : ∀ fd events, .event fd events ∉ s.todo
  kept : ∀ fd, atWait s.history fd ≠ none →
    KeptSince s fd ∧ s.isOpen fd = true ∧ fd ∉ s.addsIn rest
  slots_reported : ∀ i < initPollSize, 0 ≤ (s.slots i).fd →
    ¬ Touched s.history (s.slots i).fd →
      atWait s.history (s.slots i).fd ≠ none ∧
        ∀ revents ∈ pollActivations (s.slots i).revents,
          ((s.slots i).fd, revents) ∈ readyAtWait s.history
  reported : ∀ fd revents, .activate fd revents ∈ s.todo → ¬ Touched s.history fd →
    atWait s.history fd ≠ none ∧ (fd, revents) ∈ readyAtWait s.history

lemma pollRound_init {eventSet : ℕ → PollFd} (h : ∀ i < initPollSize, (eventSet i).fd = -1) :
    PollRound (init (.poll eventSet)) [] where
  toQueued := queued_init _
  isPoll := rfl
  slot_entry := by
    intro i hi hnonneg
    have hfd := h i hi
    simp only [slots, init] at hnonneg
    omega
  slots_inj := by
    intro i hi j _ hnonneg
    have hfd := h i hi
    simp only [slots, init] at hnonneg
    omega
  settled := by simp [entry, init, mapInit, ChannelMap.entry]
  no_event := by simp [init]
  kept := by simp [init, atWait]
  slots_reported := by
    intro i hi hnonneg
    have hfd := h i hi
    simp only [slots, init] at hnonneg
    omega
  reported := by simp [init]

-- the array has 1024 slots, and unification would go through all of them
attribute [local irreducible] readyNumber pollReady

namespace PollRound

variable {s s' : System} {rest : List ChannelElement} {e : ChannelElement}

/-- A step that leaves the map, the array and the ready set alone and has no new tasks to do,
except activations that are accounted for. -/
lemma of_eq {rest' : List ChannelElement} (h : PollRound s rest) (hqueued : Queued s' rest')
    (hentry : s'.entry = s.entry) (hdisp : s'.loop.eventDispatcher = s.loop.eventDispatcher)
    (hsettled : ∀ fd, s.isOpen fd = true ∧ fd ∉ s.addsIn rest →
      s'.isOpen fd = true ∧ fd ∉ s'.addsIn rest')
    (hwait : atWait s'.history = atWait s.history)
    (hready : readyAtWait s'.history = readyAtWait s.history)
    (htouched : Touched s'.history = Touched s.history)
    (hevent : ∀ fd events, .event fd events ∉ s'.todo)
    (htodo : ∀ fd revents, .activate fd revents ∈ s'.todo → ¬ Touched s.history fd →
      atWait s.history fd ≠ none ∧ (fd, revents) ∈ readyAtWait s.history) :
    PollRound s' rest' := by
  have hslots : s'.slots = s.slots := by
    unfold slots
    rw [hdisp]
  refine ⟨hqueued, ?_, ?_, ?_, ?_, hevent, ?_, ?_, ?_⟩
  · rw [hdisp, hslots]
    exact h.isPoll
  · rw [hslots, hentry]
    exact h.slot_entry
  · rw [hslots]
    exact h.slots_inj
  · rw [hentry]
    exact fun fd hfd => hsettled fd (h.settled fd hfd)
  · rw [hwait]
    exact fun fd hfd => ⟨(h.kept fd hfd).1.of_eq hentry hwait htouched,
      hsettled fd (h.kept fd hfd).2⟩
  · rw [hslots, hwait, hready, htouched]
    exact h.slots_reported
  · rw [hwait, hready, htouched]
    exact htodo

lemma accept (h : PollRound s rest) {c : Channel} (hnonneg : 0 ≤ c.fd)
    (hclosed : s.isOpen c.fd = false) :
    PollRound (s.accept c) (rest ++ [⟨.add, s.created⟩]) := by
  refine h.of_eq (h.toQueued.accept hnonneg hclosed) rfl rfl ?_ rfl rfl rfl h.no_event h.reported
  rintro fd ⟨hopen, hadds⟩
  have hne : fd ≠ c.fd := by
    rintro rfl
    rw [hclosed] at hopen
    cases hopen
  rw [h.toQueued.addsIn_accept c]
  exact ⟨by simpa [System.accept, hne] using hopen, by simp [hadds, hne]⟩

lemma enqueue (h : PollRound s rest) (htype : e.type ≠ .add) (hlt : e.channel < s.created) :
    PollRound (s.enqueue e) (rest ++ [e]) := by
  refine h.of_eq (h.toQueued.enqueue htype hlt) rfl rfl ?_ rfl rfl rfl h.no_event h.reported
  have hadds : (s.enqueue e).addsIn (rest ++ [e]) = s.addsIn rest := addsIn_append_of_ne htype rest
  rw [hadds]
  exact fun _ hfd => hfd

/-- What a request does to the array: a slot in use after it was in use for the same descriptor
before, or it is the slot of the channel that has been entered; and the slot of a descriptor
that has been taken out is free. -/
lemma slots_handled (h : PollRound s (e :: rest)) {served : ℤ → Bool}
    (heffect : Effect served s s' e) :
    s'.loop.eventDispatcher = .poll s'.slots ∧
      (e.type = .add → ∀ i j, s'.slots i ≠ s.slots i → s'.slots j ≠ s.slots j → i = j) ∧
      (∀ i < initPollSize, 0 ≤ (s'.slots i).fd →
        ((s'.slots i).fd = (s.slots i).fd ∧ (s'.slots i).revents = (s.slots i).revents ∧
          ¬ (e.type = .remove ∧ (s'.slots i).fd = s.fdOf e.channel)) ∨
        e.type = .add ∧ (s'.slots i).fd = s.fdOf e.channel ∧
          s'.entry (s.fdOf e.channel) ≠ none ∧ s.entry (s.fdOf e.channel) = none) := by
  have hpoll := h.isPoll
  cases heffect with
  | kept entry dispatcher refused absent =>
    have hslots : s'.slots = s.slots := by
      unfold slots
      rw [dispatcher]
    rw [dispatcher, hslots]
    refine ⟨hpoll, fun _ i _ hi => absurd rfl hi, fun i hi hnonneg => .inl ⟨rfl, rfl, ?_⟩⟩
    rintro ⟨htype, hfd⟩
    exact h.slot_entry i hi hnonneg (hfd ▸ absent htype)
  | entered type nonneg free entry dispatcher =>
    rw [hpoll] at dispatcher
    have hdisp := (Outcome.returned.inj dispatcher).symm
    have hslots : s'.slots = pollAdd s.slots (s.channels e.channel) := by
      unfold slots at hdisp ⊢
      rw [hdisp]
    rw [hslots]
    refine ⟨hdisp, fun _ _ _ => pollAdd_inj, fun i hi hnonneg => ?_⟩
    rcases pollAdd_slot s.slots (s.channels e.channel) i with hold | hnew
    · rw [hold]
      exact .inl ⟨rfl, rfl, by simp [type]⟩
    · exact .inr ⟨type, hnew, by simp [entry], free⟩
  | removed type channel2 taken entry dispatcher =>
    rw [hpoll] at dispatcher
    have hdisp := (Outcome.returned.inj dispatcher).symm
    have hslots : s'.slots = pollDel s.slots (s.channels channel2) := by
      unfold slots at hdisp ⊢
      rw [hdisp]
    have hfd2 : (s.channels channel2).fd = s.fdOf e.channel := (h.entry_fd _ _ taken).1
    rw [hslots]
    refine ⟨hdisp, by simp [type], fun i hi hnonneg => .inl ?_⟩
    rcases pollDel_slot s.slots (s.channels channel2) hi with hfree | ⟨hold, hfirst⟩
    · omega
    · rw [hold] at hnonneg ⊢
      refine ⟨rfl, rfl, ?_⟩
      rintro ⟨-, hfd⟩
      obtain ⟨k, hk, hne, hfdk⟩ := hfirst (hfd.trans hfd2.symm)
      exact hne (h.slots_inj i hi k hk hnonneg (by rw [hfd, hfdk, hfd2])).symm
  | updated type entry taken dispatcher =>
    rw [hpoll] at dispatcher
    have hdisp := (Outcome.returned.inj dispatcher).symm
    have hslots : s'.slots = pollUpdate s.slots (s.channels e.channel) := by
      unfold slots at hdisp ⊢
      rw [hdisp]
    rw [hslots]
    refine ⟨hdisp, by simp [type], fun i hi hnonneg => .inl ?_⟩
    obtain ⟨hfd, hrevents⟩ := pollUpdate_slot s.slots (s.channels e.channel) i
    exact ⟨hfd, hrevents, by simp [type]⟩

lemma handleElement (h : PollRound s (e :: rest)) {served : ℤ → Bool}
    (hstep : s.handleElement served e = .returned s') : PollRound s' rest := by
  have hqueued := h.toQueued.handleElement hstep
  obtain ⟨hsame, hhistory, heffect⟩ := handleElement_cases hstep
  obtain ⟨hpoll, hone, hslots⟩ := h.slots_handled heffect
  have hmem : ∀ fd, fd ∉ s.addsIn (e :: rest) → fd ∉ s.addsIn rest :=
    fun fd => mt mem_addsIn_cons
  have hwait : atWait s'.history = atWait s.history := by
    rw [hhistory]
    rfl
  have hready : readyAtWait s'.history = readyAtWait s.history := by
    rw [hhistory]
    rfl
  have htouched : ∀ fd, Touched s.history fd → Touched s'.history fd := by
    intro fd hfd
    rw [hhistory]
    exact .inr hfd
  refine ⟨hqueued, hpoll, ?_, ?_, ?_, ?_, ?_, ?_, ?_⟩
  · intro i hi hnonneg
    rcases hslots i hi hnonneg with ⟨hfd, -, hnot⟩ | ⟨-, hfd, hsome, -⟩
    · refine heffect.entry_stays ?_ hnot
      rw [hfd]
      exact h.slot_entry i hi (hfd ▸ hnonneg)
    · rw [hfd]
      exact hsome
  · intro i hi j hj hnonneg heq
    have hchanged : ∀ k < initPollSize, (s'.slots k).fd = s.fdOf e.channel →
        0 ≤ (s'.slots k).fd → s.entry (s.fdOf e.channel) = none → s'.slots k ≠ s.slots k := by
      intro k hk hfd hnonneg hfree hsame
      rw [hsame] at hfd hnonneg
      exact h.slot_entry k hk hnonneg (hfd ▸ hfree)
    rcases hslots i hi hnonneg with ⟨hfdi, -, -⟩ | ⟨htype, hfdi, -, hfree⟩
    · rcases hslots j hj (heq ▸ hnonneg) with ⟨hfdj, -, -⟩ | ⟨-, hfdj, -, hfree⟩
      · exact h.slots_inj i hi j hj (hfdi ▸ hnonneg) (by rw [← hfdi, ← hfdj, heq])
      · refine absurd hfree (hfdj ▸ heq ▸ hfdi ▸ h.slot_entry i hi (hfdi ▸ hnonneg))
    · have hfdj : (s'.slots j).fd = s.fdOf e.channel := heq ▸ hfdi
      exact hone htype i j (hchanged i hi hfdi hnonneg hfree)
        (hchanged j hj hfdj (heq ▸ hnonneg) hfree)
  · rw [hsame.isOpen, hsame.addsIn]
    intro fd hfd
    rcases heffect.of_entry hfd with hold | ⟨type, rfl⟩
    · exact ⟨(h.settled fd hold).1, hmem fd (h.settled fd hold).2⟩
    · exact ⟨(h.adds_open _ (by simp [addsIn_cons_add type])).2, h.toQueued.fdOf_not_mem type⟩
  · rw [hsame.todo]
    exact h.no_event
  · intro fd hfd
    rw [hwait] at hfd
    obtain ⟨hkept, hopen, hadds⟩ := h.kept fd hfd
    rw [hsame.isOpen, hsame.addsIn]
    refine ⟨hkept.handleElement ?_ hstep, hopen, hmem fd hadds⟩
    rintro htype rfl
    exact hadds (by simp [addsIn_cons_add htype])
  · intro i hi hnonneg hnot
    rcases hslots i hi hnonneg with ⟨hfd, hrevents, -⟩ | ⟨htype, hfd, -, -⟩
    · rw [hwait, hready, hfd, hrevents]
      exact h.slots_reported i hi (hfd ▸ hnonneg) fun htouch => hnot (htouched _ (hfd ▸ htouch))
    · refine absurd ?_ hnot
      rw [hhistory, hfd]
      exact .inl ⟨by simp [htype], rfl⟩
  · rw [hwait, hready, hsame.todo]
    intro fd revents hin hnot
    exact h.reported fd revents hin fun htouch => hnot (htouched _ htouch)

/-- A round begins. -/
lemma pollWait (h : PollRound s rest) (revents : ℕ → BitVec 16) :
    PollRound (s.pollWait revents) rest := by
  have hpoll := h.isPoll
  have hwait : s.pollWait revents = { s with
      loop := { s.loop with eventDispatcher := .poll (pollAnswer s.slots revents) }
      todo := if readyNumber (pollAnswer s.slots revents) ≤ 0 then []
        else [.slot 0 (readyNumber (pollAnswer s.slots revents))]
      history := .waited s.entry (pollReady (pollAnswer s.slots revents)) :: s.history } := by
    unfold System.pollWait
    rw [hpoll]
  rw [hwait]
  refine ⟨h.toQueued.of_eq rfl rfl rfl rfl, rfl, h.slot_entry, h.slots_inj, h.settled, ?_, ?_, ?_,
    ?_⟩
  · intro fd events hin
    cases mem_scan hin
  · exact fun fd hfd => ⟨⟨hfd, fun htouched => htouched.elim, fun _ => rfl⟩, h.settled fd hfd⟩
  · intro i hi hnonneg _
    exact ⟨h.slot_entry i hi hnonneg, fun r hr => mem_pollReady hi hr⟩
  · intro fd r hin
    cases mem_scan hin

/-- The tasks a look at a slot leads to are activations of its descriptor for events it has
been found ready for, and the rest of the scan. -/
lemma mem_scanSlot (h : PollRound s rest) {i : ℕ} {n : ℤ} {task : Task}
    (htask : task ∈ s.scanSlot i n) :
    (∃ i n, task = .slot i n) ∨ (∃ i n, task = .count i n) ∨
      i < initPollSize ∧ 0 ≤ (s.slots i).fd ∧
        ∃ r ∈ pollActivations (s.slots i).revents, task = .activate (s.slots i).fd r := by
  unfold scanSlot at htask
  rw [h.isPoll] at htask
  dsimp only at htask
  split_ifs at htask with hend hfree hready
  · simp at htask
  · exact .inl ⟨_, _, List.mem_singleton.1 htask⟩
  · rcases List.mem_append.1 htask with hin | hin
    · obtain ⟨r, hr, rfl⟩ := List.mem_map.1 hin
      exact .inr (.inr ⟨by omega, by omega, r, hr, rfl⟩)
    · exact .inr (.inl ⟨_, _, List.mem_singleton.1 hin⟩)
  · exact .inl ⟨_, _, List.mem_singleton.1 htask⟩

lemma next (h : PollRound s rest) (hstep : s.step .next = .returned s') : PollRound s' rest := by
  cases htodo : s.todo with
  | nil =>
    simp only [System.step, htodo] at hstep
    cases hstep
    exact h
  | cons task todo =>
    have hmem : ∀ task' ∈ todo, task' ∈ s.todo := by
      intro task' htask'
      rw [htodo]
      exact List.mem_cons_of_mem _ htask'
    simp only [System.step, htodo] at hstep
    cases task with
    | event fd events => exact absurd (by simp [htodo]) (h.no_event fd events)
    | slot i n =>
      cases hstep
      refine h.of_eq (h.toQueued.of_eq rfl rfl rfl rfl) rfl rfl (fun _ hfd => hfd) rfl rfl rfl ?_ ?_
      · intro fd events hin
        rcases List.mem_append.1 hin with hin | hin
        · rcases h.mem_scanSlot hin with ⟨_, _, heq⟩ | ⟨_, _, heq⟩ | ⟨_, _, _, _, heq⟩ <;> cases heq
        · exact h.no_event fd events (hmem _ hin)
      · intro fd revents hin hnot
        rcases List.mem_append.1 hin with hin | hin
        · rcases h.mem_scanSlot hin with ⟨_, _, heq⟩ | ⟨_, _, heq⟩ | ⟨hi, hnonneg, r, hr, heq⟩
          · cases heq
          · cases heq
          · cases heq
            obtain ⟨hwas, hready⟩ := h.slots_reported i hi hnonneg hnot
            exact ⟨hwas, hready _ hr⟩
        · exact h.reported fd revents (hmem _ hin) hnot
    | count i n =>
      cases hstep
      have hin : ∀ task, task ∈ (if n - 1 ≤ 0 then todo else .slot (i + 1) (n - 1) :: todo) →
          task = .slot (i + 1) (n - 1) ∨ task ∈ s.todo := by
        intro task htask
        split_ifs at htask
        · exact .inr (hmem _ htask)
        · exact (List.mem_cons.1 htask).imp_right (hmem _)
      refine h.of_eq (h.toQueued.of_eq rfl rfl rfl rfl) rfl rfl (fun _ hfd => hfd) rfl rfl rfl ?_ ?_
      · intro fd events htask
        rcases hin _ htask with heq | htask
        · cases heq
        · exact h.no_event fd events htask
      · intro fd revents htask hnot
        rcases hin _ htask with heq | htask
        · cases heq
        · exact h.reported fd revents htask hnot
    | activate fd revents =>
      obtain ⟨calls, rfl⟩ := channelEventActivate_cases hstep
      exact h.of_eq (h.toQueued.of_eq rfl rfl rfl rfl) rfl rfl (fun _ hfd => hfd)
        (atWait_called calls _) (readyAtWait_called calls _) (touched_called calls _)
        (fun fd events hin => h.no_event fd events (hmem _ hin))
        (fun fd revents hin => h.reported fd revents (hmem _ hin))

theorem step (h : PollRound s s.loop.pending) {op : Op} (hp : s.Possible op)
    (hstep : s.step op = .returned s') : PollRound s' s'.loop.pending := by
  have hpoll := h.isPoll
  cases op with
  | accept channel =>
    cases hstep
    exact h.accept hp.1 hp.2
  | request type channel =>
    cases hstep
    exact h.enqueue hp.1 hp.2
  | setEvents channel events =>
    cases hstep
    have hfd := fdOf_setEvents s channel events
    refine h.of_eq (h.toQueued.of_eq rfl hfd rfl rfl) rfl rfl ?_ rfl rfl rfl h.no_event h.reported
    have hadds : (s.setEvents channel events).addsIn s.loop.pending = s.addsIn s.loop.pending :=
      addsIn_congr fun e _ => congrFun hfd e.channel
    intro fd hfd
    exact ⟨hfd.1, hadds ▸ hfd.2⟩
  | drain served =>
    refine drain_preserves PollRound (fun _ _ _ _ hs hs' => hs.handleElement hs') ?_ h hstep
    rintro s s' hs rfl
    exact hs.of_eq (hs.toQueued.of_eq rfl rfl rfl rfl) rfl rfl (fun _ hfd => hfd) rfl rfl rfl
      hs.no_event hs.reported
  | epollWait ready =>
    have hready := hp.2.2.2
    rw [hpoll] at hready
    exact hready.elim
  | pollWait revents =>
    cases hstep
    have hpending : (s.pollWait revents).loop.pending = s.loop.pending := by
      unfold System.pollWait
      rw [hpoll]
    rw [hpending]
    exact h.pollWait revents
  | next =>
    rw [next_pending hstep]
    exact h.next hstep

lemma live_iff (h : PollRound s rest) {fd : ℤ} {revents : BitVec 32} {todo : List Task}
    (htodo : s.todo = .activate fd revents :: todo) :
    s.Live fd revents ↔ ¬ Touched s.history fd := by
  constructor
  · intro hlive htouched
    have hwas : atWait s.history fd ≠ none := by
      obtain ⟨_, channel, _, _, _, _, hchannel, _⟩ := hlive
      simp [hchannel]
    exact not_live_of_entry ((h.kept fd hwas).1.of_touched htouched) hlive
  · intro hnot
    obtain ⟨hwas, hready⟩ := h.reported fd revents (by simp [htodo]) hnot
    exact live_of_entry h.toQueued htodo hwas ((h.kept fd hwas).1.of_not_touched hnot) hready

end PollRound

/-! ## Either dispatcher -/

/-- What `epoll_init` and `poll_init` leave. -/
def Fresh : Dispatcher → Prop
  | .epoll interest => interest = fun _ => none
  | .poll eventSet => ∀ i < initPollSize, (eventSet i).fd = -1

/-- In every history of an event loop with either dispatcher, an activation is live exactly
when no add or remove request for its descriptor has been handled since the ready set was
taken. -/
theorem activation_live_iff (dispatcher : Dispatcher) (hfresh : Fresh dispatcher) (ops : List Op)
    (hp : Outcome.Throughout step Possible (init dispatcher) ops) (s : System)
    (hrun : Outcome.run step (init dispatcher) ops = .returned s) (fd : ℤ) (revents : BitVec 32)
    (todo : List Task) (htodo : s.todo = .activate fd revents :: todo) :
    s.Live fd revents ↔ ¬ Touched s.history fd := by
  cases dispatcher with
  | epoll interest =>
    obtain rfl : interest = fun _ => none := hfresh
    have hround : EpollRound s s.loop.pending :=
      hp.preserves (fun s => EpollRound s s.loop.pending)
        (fun _ _ _ h hop hstep => h.step hop hstep) epollRound_init hrun
    exact hround.live_iff htodo
  | poll eventSet =>
    have hround : PollRound s s.loop.pending :=
      hp.preserves (fun s => PollRound s s.loop.pending)
        (fun _ _ _ h hop hstep => h.step hop hstep) (pollRound_init hfresh) hrun
    exact hround.live_iff htodo

theorem activation_live_iff_reported :
    ∃ s, Outcome.run step (init (.epoll fun _ => none)) (reported EPOLLIN) = .returned s ∧
      (s.Live 5 eventRead ↔ ¬ Touched s.history 5) :=
  ⟨_, rfl, activation_live_iff (.epoll fun _ => none) rfl _ (reported_possible EPOLLIN) _ rfl 5
    eventRead [] rfl⟩

/-- Connection 0 is reported readable and writable, and its read callback finds the end of the
stream: it removes the connection, which its own thread handles at once. -/
def endOfStream : List Op :=
  reported (EPOLLIN ||| EPOLLOUT) ++ [.next, .request .remove 0, .drain fun _ => true]

lemma endOfStream_possible :
    Outcome.Throughout step Possible (init (.epoll fun _ => none)) endOfStream := by
  refine Outcome.throughout_append.2 ⟨reported_possible _, fun s hs => ?_⟩
  cases hs
  refine (Outcome.throughout_cons_returned rfl _).2 ⟨trivial, ?_⟩
  refine (Outcome.throughout_cons_returned rfl _).2 ⟨⟨by decide, by decide⟩, ?_⟩
  exact ⟨trivial, fun _ _ => trivial⟩

lemma endOfStream_run :
    ∃ s, Outcome.run step (init (.epoll fun _ => none)) endOfStream = .returned s ∧
      s.todo = [.activate 5 eventWrite] ∧ s.entry 5 = none ∧
      s.step .next = .faulted .nullPointer :=
  ⟨_, rfl, rfl, rfl, rfl⟩

/-- The write activation of a connection that its read callback has removed reaches a `NULL`
entry. -/
theorem activation_not_live_after_endOfStream :
    ¬ ∀ (dispatcher : Dispatcher), Fresh dispatcher → ∀ ops : List Op,
      Outcome.Throughout step Possible (init dispatcher) ops → ∀ s : System,
      Outcome.run step (init dispatcher) ops = .returned s →
      ∀ (fd : ℤ) (revents : BitVec 32) (todo : List Task),
        s.todo = .activate fd revents :: todo → s.Live fd revents := by
  intro h
  obtain ⟨s, hrun, htodo, hentry, -⟩ := endOfStream_run
  exact not_live_of_entry hentry
    (h (.epoll fun _ => none) rfl _ endOfStream_possible s hrun 5 eventWrite [] htodo)

end System

end Yolanda
