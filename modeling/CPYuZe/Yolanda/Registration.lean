import CPYuZe.Yolanda.Dispatch

/-!
# What every history of an event loop keeps

Invariants of `System` that hold after any possible steps, with no assumption on what events
the kernel reports.  They are stated of a system and of the requests that are still to be
handled, because a drain handles the pending list one element at a time before it empties it.

`Queued` is about both dispatchers: an entry of the map is a channel of that descriptor, and
the add requests still to be handled are for distinct open descriptors.  `EpollSound` adds what
a loop with `epoll_dispatcher` keeps: a descriptor that is watched has an entry, is open and
has no add request waiting, and so has every descriptor the round in progress still has to
look at.
-/

namespace Yolanda

namespace Dispatcher

/-! ## What the dispatchers do to the set of watched descriptors -/

section Watches

variable {isOpen : ℤ → Bool} {interest : ℤ → Option (BitVec 32)} {d' : Dispatcher}
  {channel : Channel}

lemma epoll_add_cases (h : (epoll interest).add isOpen channel = .returned d') :
    isOpen channel.fd = true ∧ interest channel.fd = none ∧
      d' = epoll (Function.update interest channel.fd (some (epollEvents channel))) := by
  obtain ⟨interest', hadd, hdone⟩ := Outcome.bind_eq_returned.1 h
  unfold epollAdd at hadd
  split_ifs at hadd with hok
  cases hadd
  cases hdone
  exact ⟨hok.1, hok.2, rfl⟩

lemma epoll_del_cases (h : (epoll interest).del channel = .returned d') :
    (interest channel.fd).isSome = true ∧
      d' = epoll (Function.update interest channel.fd none) := by
  obtain ⟨interest', hdel, hdone⟩ := Outcome.bind_eq_returned.1 h
  unfold epollDel at hdel
  split_ifs at hdel with hok
  cases hdel
  cases hdone
  exact ⟨hok, rfl⟩

lemma epoll_update_cases (h : (epoll interest).update channel = .returned d') :
    (interest channel.fd).isSome = true ∧
      d' = epoll (Function.update interest channel.fd (some (epollEvents channel))) := by
  obtain ⟨interest', hupdate, hdone⟩ := Outcome.bind_eq_returned.1 h
  unfold epollUpdate at hupdate
  split_ifs at hupdate with hok
  cases hupdate
  cases hdone
  exact ⟨hok, rfl⟩

end Watches

end Dispatcher

namespace System

/-- The descriptors of the add requests in a list. -/
def addsIn (s : System) (es : List ChannelElement) : List ℤ :=
  (es.filter fun e => decide (e.type = .add)).map fun e => s.fdOf e.channel

lemma mem_addsIn {s : System} {es : List ChannelElement} {fd : ℤ} :
    fd ∈ s.addsIn es ↔ ∃ e ∈ es, e.type = .add ∧ s.fdOf e.channel = fd := by
  simp [addsIn, and_assoc]

lemma addsIn_cons_add {s : System} {e : ChannelElement} (h : e.type = .add)
    (es : List ChannelElement) : s.addsIn (e :: es) = s.fdOf e.channel :: s.addsIn es := by
  simp [addsIn, h]

lemma addsIn_cons_of_ne {s : System} {e : ChannelElement} (h : e.type ≠ .add)
    (es : List ChannelElement) : s.addsIn (e :: es) = s.addsIn es := by
  simp [addsIn, h]

/-- What is among the later requests is among all of them. -/
lemma mem_addsIn_cons {s : System} {e : ChannelElement} {es : List ChannelElement} {fd : ℤ}
    (h : fd ∈ s.addsIn es) : fd ∈ s.addsIn (e :: es) := by
  obtain ⟨e', he', htype, hfd⟩ := mem_addsIn.1 h
  exact mem_addsIn.2 ⟨e', List.mem_cons_of_mem e he', htype, hfd⟩

lemma addsIn_append (s : System) (es es' : List ChannelElement) :
    s.addsIn (es ++ es') = s.addsIn es ++ s.addsIn es' := by
  simp [addsIn]

lemma addsIn_append_of_ne {s : System} {e : ChannelElement} (h : e.type ≠ .add)
    (es : List ChannelElement) : s.addsIn (es ++ [e]) = s.addsIn es := by
  simp [addsIn, h]

/-- Only the descriptors of the requests' channels matter. -/
lemma addsIn_congr {s s' : System} {es : List ChannelElement}
    (h : ∀ e ∈ es, s'.fdOf e.channel = s.fdOf e.channel) : s'.addsIn es = s.addsIn es :=
  List.map_congr_left fun e he => h e (List.mem_of_mem_filter he)

/-! ## Handling one request -/

/-- A step that leaves the channels, the descriptors and the round as they are. -/
structure SameRound (s s' : System) : Prop where
  channels : s'.channels = s.channels
  created : s'.created = s.created
  isOpen : s'.isOpen = s.isOpen
  todo : s'.todo = s.todo

lemma SameRound.fdOf {s s' : System} (h : SameRound s s') : s'.fdOf = s.fdOf := by
  funext channel
  unfold System.fdOf
  rw [h.channels]

lemma SameRound.addsIn {s s' : System} (h : SameRound s s') : s'.addsIn = s.addsIn := by
  funext es
  unfold System.addsIn
  rw [h.fdOf]

/-- What a request that has been handled did to the map and to the dispatcher. -/
inductive Effect (served : ℤ → Bool) (s s' : System) (e : ChannelElement) : Prop
  /-- The map is as it was, and so is the dispatcher. -/
  | kept (entry : s'.entry = s.entry)
      (dispatcher : s'.loop.eventDispatcher = s.loop.eventDispatcher)
      (refused : e.type = .add → s.fdOf e.channel < 0 ∨ (∃ n, served n = false) ∨
        s.entry (s.fdOf e.channel) ≠ none)
      (absent : e.type = .remove → s.entry (s.fdOf e.channel) = none)
  /-- The channel has been entered. -/
  | entered (type : e.type = .add) (nonneg : 0 ≤ s.fdOf e.channel)
      (free : s.entry (s.fdOf e.channel) = none)
      (entry : s'.entry = Function.update s.entry (s.fdOf e.channel) (some e.channel))
      (dispatcher : s.loop.eventDispatcher.add s.isOpen (s.channels e.channel) =
        .returned s'.loop.eventDispatcher)
  /-- What was entered for the descriptor has been taken out. -/
  | removed (type : e.type = .remove) (channel2 : ChannelPtr)
      (taken : s.entry (s.fdOf e.channel) = some channel2)
      (entry : s'.entry = Function.update s.entry (s.fdOf e.channel) none)
      (dispatcher : s.loop.eventDispatcher.del (s.channels channel2) =
        .returned s'.loop.eventDispatcher)
  /-- The dispatcher has the flags of the channel. -/
  | updated (type : e.type = .update) (entry : s'.entry = s.entry)
      (taken : s.entry (s.fdOf e.channel) ≠ none)
      (dispatcher : s.loop.eventDispatcher.update (s.channels e.channel) =
        .returned s'.loop.eventDispatcher)

lemma handleElement_cases {served : ℤ → Bool} {s s' : System} {e : ChannelElement}
    (h : s.handleElement served e = .returned s') :
    SameRound s s' ∧ s'.history = .handled e.type (s.fdOf e.channel) e.channel :: s.history ∧
      Effect served s s' e := by
  obtain ⟨loop, hloop, hdone⟩ := Outcome.bind_eq_returned.1 h
  cases hdone
  refine ⟨⟨rfl, rfl, rfl, rfl⟩, rfl, ?_⟩
  obtain ⟨type, channel⟩ := e
  cases type with
  | add =>
    obtain ⟨-, ⟨hentry, hdisp, hwhy⟩ | ⟨hnonneg, hfree, hentry, hadd⟩⟩ :=
      handlePendingAdd_cases hloop
    · exact .kept hentry hdisp (fun _ => hwhy) nofun
    · exact .entered rfl hnonneg hfree hentry hadd
  | remove =>
    obtain ⟨-, ⟨habsent, rfl⟩ | ⟨channel2, htaken, hentry, hdel⟩⟩ :=
      handlePendingRemove_cases hloop
    · exact .kept rfl rfl nofun fun _ => habsent
    · exact .removed rfl channel2 htaken hentry hdel
  | update =>
    obtain ⟨-, hmap, hdisp | ⟨-, htaken, hupdate⟩⟩ := handlePendingUpdate_cases hloop
    · exact .kept (congrArg ChannelMap.entry hmap) hdisp nofun nofun
    · exact .updated rfl (congrArg ChannelMap.entry hmap) htaken hupdate

/-- A descriptor has an entry after a request if it had one or has been added. -/
lemma Effect.of_entry {served : ℤ → Bool} {s s' : System} {e : ChannelElement}
    (h : Effect served s s' e) {fd : ℤ} (hfd : s'.entry fd ≠ none) :
    s.entry fd ≠ none ∨ e.type = .add ∧ fd = s.fdOf e.channel := by
  cases h with
  | kept entry | updated _ entry => exact .inl (entry ▸ hfd)
  | entered type _ _ entry =>
    rw [entry, Function.update_apply] at hfd
    split_ifs at hfd with heq
    · exact .inr ⟨type, heq⟩
    · exact .inl hfd
  | removed _ _ _ entry =>
    rw [entry, Function.update_apply] at hfd
    split_ifs at hfd with heq
    · exact absurd rfl hfd
    · exact .inl hfd

/-- An entry stays unless it is removed. -/
lemma Effect.entry_stays {served : ℤ → Bool} {s s' : System} {e : ChannelElement}
    (h : Effect served s s' e) {fd : ℤ} (hfd : s.entry fd ≠ none)
    (hnot : ¬ (e.type = .remove ∧ fd = s.fdOf e.channel)) : s'.entry fd ≠ none := by
  cases h with
  | kept entry | updated _ entry =>
    rw [entry]
    exact hfd
  | entered _ _ _ entry =>
    rw [entry, Function.update_apply]
    split_ifs
    · exact Option.some_ne_none _
    · exact hfd
  | removed type _ _ entry =>
    rw [entry, Function.update_of_ne fun heq => hnot ⟨type, heq⟩]
    exact hfd

/-- What the handling of every request keeps, with the request gone from those to come, a
drain keeps. -/
lemma drain_preserves (inv : System → List ChannelElement → Prop) {served : ℤ → Bool}
    (hstep : ∀ s e rest s', inv s (e :: rest) → s.handleElement served e = .returned s' →
      inv s' rest)
    (hloop : ∀ s s', inv s [] → s' = { s with loop := { s.loop with pending := [] } } →
      inv s' [])
    {s s' : System} (hs : inv s s.loop.pending) (h : s.drain served = .returned s') :
    inv s' s'.loop.pending := by
  obtain ⟨s₁, hrun, hdone⟩ := Outcome.bind_eq_returned.1 h
  cases hdone
  have hall : ∀ (es : List ChannelElement) (t : System), inv t es →
      Outcome.run (handleElement served) t es = .returned s₁ → inv s₁ [] := by
    intro es
    induction es with
    | nil =>
      intro t ht hrun
      cases hrun
      exact ht
    | cons e es ih =>
      intro t ht hrun
      obtain ⟨t₁, ht₁, hrest⟩ := Outcome.run_cons_eq_returned.1 hrun
      exact ih t₁ (hstep t e es t₁ ht ht₁) hrest
  exact hloop s₁ _ (hall _ s hs hrun) rfl

/-- Changing the flags of a channel leaves its descriptor alone. -/
lemma fdOf_setEvents (s : System) (channel : ChannelPtr) (events : BitVec 32) :
    (s.setEvents channel events).fdOf = s.fdOf := by
  funext channel'
  by_cases h : channel' = channel
  · subst h
    simp [fdOf, setEvents]
  · simp [fdOf, setEvents, h]

/-! ## Channels and their add requests -/

structure Queued (s : System) (rest : List ChannelElement) : Prop where
  entry_fd : ∀ fd channel, s.entry fd = some channel →
    s.fdOf channel = fd ∧ channel < s.created
  created : ∀ e ∈ rest, e.channel < s.created
  adds_open : ∀ fd ∈ s.addsIn rest, 0 ≤ fd ∧ s.isOpen fd = true
  adds_nodup : (s.addsIn rest).Nodup

lemma queued_init (dispatcher : Dispatcher) : Queued (init dispatcher) [] where
  entry_fd := by
    intro fd channel h
    simp [entry, init, mapInit, ChannelMap.entry] at h
  created := by simp
  adds_open := by simp [addsIn]
  adds_nodup := by simp [addsIn]

namespace Queued

variable {s s' : System} {rest : List ChannelElement} {e : ChannelElement}

/-- The descriptors of channels that exist are not changed by a new channel. -/
lemma fdOf_accept {channel : ChannelPtr} (h : channel < s.created) (c : Channel) :
    (s.accept c).fdOf channel = s.fdOf channel := by
  have hne : channel ≠ s.created := Nat.ne_of_lt h
  simp [System.fdOf, System.accept, hne]

lemma fdOf_accept_self (c : Channel) : (s.accept c).fdOf s.created = c.fd := by
  simp [System.fdOf, System.accept]

lemma addsIn_accept (h : Queued s rest) (c : Channel) :
    (s.accept c).addsIn (rest ++ [⟨.add, s.created⟩]) = s.addsIn rest ++ [c.fd] := by
  rw [addsIn_append, addsIn_congr fun e he => fdOf_accept (h.created e he) c,
    addsIn_cons_add rfl, fdOf_accept_self]
  rfl

lemma accept (h : Queued s rest) {c : Channel} (hnonneg : 0 ≤ c.fd)
    (hclosed : s.isOpen c.fd = false) :
    Queued (s.accept c) (rest ++ [⟨.add, s.created⟩]) where
  entry_fd := by
    intro fd channel hentry
    obtain ⟨hfd, hlt⟩ := h.entry_fd fd channel hentry
    exact ⟨(fdOf_accept hlt c).trans hfd, Nat.lt_succ_of_lt hlt⟩
  created := by
    intro e he
    rcases List.mem_append.1 he with he | he
    · exact Nat.lt_succ_of_lt (h.created e he)
    · rw [List.mem_singleton.1 he]
      exact Nat.lt_succ_self _
  adds_open := by
    rw [h.addsIn_accept c]
    intro fd hfd
    rcases List.mem_append.1 hfd with hfd | hfd
    · obtain ⟨hfd₀, hopen⟩ := h.adds_open fd hfd
      have hne : fd ≠ c.fd := by
        rintro rfl
        rw [hclosed] at hopen
        cases hopen
      exact ⟨hfd₀, by simpa [System.accept, hne] using hopen⟩
    · rw [List.mem_singleton.1 hfd]
      exact ⟨hnonneg, by simp [System.accept]⟩
  adds_nodup := by
    rw [h.addsIn_accept c]
    refine List.Nodup.append h.adds_nodup (List.nodup_singleton _) ?_
    intro fd hfd hc
    have hopen := (h.adds_open fd hfd).2
    rw [List.mem_singleton.1 hc, hclosed] at hopen
    cases hopen

lemma enqueue (h : Queued s rest) (htype : e.type ≠ .add) (hlt : e.channel < s.created) :
    Queued (s.enqueue e) (rest ++ [e]) where
  entry_fd := h.entry_fd
  created := by
    intro e' he'
    rcases List.mem_append.1 he' with he' | he'
    · exact h.created e' he'
    · rw [List.mem_singleton.1 he']
      exact hlt
  adds_open := by
    show ∀ fd ∈ s.addsIn (rest ++ [e]), 0 ≤ fd ∧ s.isOpen fd = true
    rw [addsIn_append_of_ne htype]
    exact h.adds_open
  adds_nodup := by
    show (s.addsIn (rest ++ [e])).Nodup
    rw [addsIn_append_of_ne htype]
    exact h.adds_nodup

/-- A step that leaves the map, the channels' descriptors and the open descriptors alone. -/
lemma of_eq (h : Queued s rest) (hentry : s'.entry = s.entry) (hfd : s'.fdOf = s.fdOf)
    (hcreated : s'.created = s.created) (hopen : s'.isOpen = s.isOpen) : Queued s' rest where
  entry_fd := by
    rw [hentry, hfd, hcreated]
    exact h.entry_fd
  created := by
    rw [hcreated]
    exact h.created
  adds_open := by
    rw [addsIn_congr fun e _ => congrFun hfd e.channel, hopen]
    exact h.adds_open
  adds_nodup := by
    rw [addsIn_congr fun e _ => congrFun hfd e.channel]
    exact h.adds_nodup

/-- Closing a descriptor without a waiting add request. -/
lemma closeFd (h : Queued s rest) {fd : ℤ} (hfd : fd ∉ s.addsIn rest) :
    Queued (s.closeFd fd) rest where
  entry_fd := h.entry_fd
  created := h.created
  adds_open := by
    intro fd' hfd'
    obtain ⟨hfd₀, hopen⟩ := h.adds_open fd' hfd'
    have hne : fd' ≠ fd := fun heq => hfd (heq ▸ hfd')
    exact ⟨hfd₀, by simpa [System.closeFd, hne] using hopen⟩
  adds_nodup := h.adds_nodup

lemma of_cons (h : Queued s (e :: rest)) : Queued s rest where
  entry_fd := h.entry_fd
  created := fun e' he' => h.created e' (List.mem_cons_of_mem e he')
  adds_open := by
    intro fd hfd
    exact h.adds_open fd (mem_addsIn_cons hfd)
  adds_nodup := by
    by_cases htype : e.type = .add
    · have hnodup := h.adds_nodup
      rw [addsIn_cons_add htype] at hnodup
      exact (List.nodup_cons.1 hnodup).2
    · have hnodup := h.adds_nodup
      rwa [addsIn_cons_of_ne htype] at hnodup

lemma handleElement (h : Queued s (e :: rest)) {served : ℤ → Bool}
    (hstep : s.handleElement served e = .returned s') : Queued s' rest := by
  obtain ⟨hsame, -, heffect⟩ := handleElement_cases hstep
  have hrest := h.of_cons
  refine ⟨?_, ?_, ?_, ?_⟩
  · rw [hsame.fdOf, hsame.created]
    intro fd channel hchannel
    cases heffect with
    | kept entry | updated _ entry =>
      rw [entry] at hchannel
      exact h.entry_fd fd channel hchannel
    | entered _ _ _ entry =>
      rw [entry, Function.update_apply] at hchannel
      split_ifs at hchannel with hfd
      · cases hchannel
        exact ⟨hfd.symm, h.created e List.mem_cons_self⟩
      · exact h.entry_fd fd channel hchannel
    | removed _ _ _ entry =>
      rw [entry, Function.update_apply] at hchannel
      split_ifs at hchannel with hfd
      exact h.entry_fd fd channel hchannel
  · rw [hsame.created]
    exact hrest.created
  · rw [hsame.addsIn, hsame.isOpen]
    exact hrest.adds_open
  · rw [hsame.addsIn]
    exact hrest.adds_nodup

/-- The descriptor of the add request that is handled has no other one waiting. -/
lemma fdOf_not_mem (h : Queued s (e :: rest)) (htype : e.type = .add) :
    s.fdOf e.channel ∉ s.addsIn rest := by
  have hnodup := h.adds_nodup
  rw [addsIn_cons_add htype] at hnodup
  exact (List.nodup_cons.1 hnodup).1

end Queued

/-! ## A loop with the epoll dispatcher -/

/-- What a request that has been handled did to the map and to the descriptors an epoll instance
watches. -/
inductive WatchEffect (s s' : System) (e : ChannelElement) : Prop
  | kept (entry : s'.entry = s.entry) (watches : ∀ fd, s'.Watches fd ↔ s.Watches fd)
  | entered (type : e.type = .add) (isOpen : s.isOpen (s.fdOf e.channel) = true)
      (entry : s'.entry = Function.update s.entry (s.fdOf e.channel) (some e.channel))
      (watches : ∀ fd, s'.Watches fd ↔ fd = s.fdOf e.channel ∨ s.Watches fd)
  | removed (type : e.type = .remove)
      (entry : s'.entry = Function.update s.entry (s.fdOf e.channel) none)
      (watches : ∀ fd, s'.Watches fd ↔ fd ≠ s.fdOf e.channel ∧ s.Watches fd)

lemma watches_of_epoll {s : System} {interest : ℤ → Option (BitVec 32)}
    (h : s.loop.eventDispatcher = .epoll interest) (fd : ℤ) :
    s.Watches fd ↔ (interest fd).isSome = true := by
  rw [Watches, h]
  rfl

lemma Effect.watch {served : ℤ → Bool} {s s' : System} {e : ChannelElement}
    {rest : List ChannelElement} (heffect : Effect served s s' e) (h : Queued s (e :: rest))
    (hepoll : ∃ interest, s.loop.eventDispatcher = .epoll interest) :
    (∃ interest, s'.loop.eventDispatcher = .epoll interest) ∧ WatchEffect s s' e := by
  obtain ⟨interest, hepoll⟩ := hepoll
  cases heffect with
  | kept entry dispatcher =>
    have hset := dispatcher.trans hepoll
    refine ⟨⟨interest, hset⟩, .kept entry fun fd => ?_⟩
    rw [watches_of_epoll hset, watches_of_epoll hepoll]
  | entered type _ _ entry dispatcher =>
    rw [hepoll] at dispatcher
    obtain ⟨hopen, -, hset⟩ := Dispatcher.epoll_add_cases dispatcher
    refine ⟨⟨_, hset⟩, .entered type hopen entry fun fd => ?_⟩
    rw [watches_of_epoll hset, watches_of_epoll hepoll, Function.update_apply]
    show _ ↔ fd = (s.channels e.channel).fd ∨ _
    split_ifs with hfd
    · exact iff_of_true rfl (.inl hfd)
    · exact (or_iff_right hfd).symm
  | removed type channel2 taken entry dispatcher =>
    rw [hepoll] at dispatcher
    obtain ⟨-, hset⟩ := Dispatcher.epoll_del_cases dispatcher
    refine ⟨⟨_, hset⟩, .removed type entry fun fd => ?_⟩
    rw [watches_of_epoll hset, watches_of_epoll hepoll, Function.update_apply,
      ← (h.entry_fd _ _ taken).1]
    show _ ↔ fd ≠ (s.channels channel2).fd ∧ _
    split_ifs with hfd
    · exact iff_of_false nofun fun hw => hw.1 hfd
    · exact (and_iff_right hfd).symm
  | updated type entry _ dispatcher =>
    rw [hepoll] at dispatcher
    obtain ⟨hsome, hset⟩ := Dispatcher.epoll_update_cases dispatcher
    refine ⟨⟨_, hset⟩, .kept entry fun fd => ?_⟩
    rw [watches_of_epoll hset, watches_of_epoll hepoll, Function.update_apply]
    split_ifs with hfd
    · rw [hfd]
      exact iff_of_true rfl hsome
    · exact Iff.rfl

/-- The descriptors of the events still to be looked at. -/
def eventFds (todo : List Task) : List ℤ :=
  todo.filterMap fun
    | .event fd _ => some fd
    | _ => none

/-- The descriptors of the activations still to be made. -/
def activateFds (todo : List Task) : List ℤ :=
  todo.filterMap fun
    | .activate fd _ => some fd
    | _ => none

lemma activateFds_map_activate (fd : ℤ) (events : List (BitVec 32)) (rest : List Task) :
    ∀ fd' ∈ activateFds (events.map (.activate fd) ++ rest), fd' = fd ∨ fd' ∈ activateFds rest := by
  intro fd' hfd'
  rw [activateFds, List.filterMap_append, List.mem_append] at hfd'
  rcases hfd' with hfd' | hfd'
  · left
    simp only [List.mem_filterMap, List.mem_map] at hfd'
    obtain ⟨_, ⟨_, _, rfl⟩, hfd'⟩ := hfd'
    exact (Option.some.inj hfd').symm
  · exact .inr hfd'

lemma eventFds_map_activate (fd : ℤ) (events : List (BitVec 32)) (rest : List Task) :
    eventFds (events.map (.activate fd) ++ rest) = eventFds rest := by
  unfold eventFds
  rw [List.filterMap_append, List.filterMap_map]
  have hnone : events.filterMap ((fun | .event fd _ => some fd | _ => none) ∘ Task.activate fd) =
      ([] : List ℤ) := by
    induction events <;> simp
  rw [hnone, List.nil_append]

lemma eventFds_map_event (ready : List (ℤ × BitVec 32)) :
    eventFds (ready.map fun e => .event e.1 e.2) = ready.map Prod.fst := by
  induction ready with
  | nil => rfl
  | cons e ready ih => simp [eventFds]

lemma activateFds_map_event (ready : List (ℤ × BitVec 32)) :
    activateFds (ready.map fun e => .event e.1 e.2) = [] := by
  induction ready with
  | nil => rfl
  | cons e ready ih => simp [activateFds]

/-- An activation that returns changes nothing but the history. -/
lemma channelEventActivate_cases {s s' : System} {fd : ℤ} {revents : BitVec 32}
    (h : s.channelEventActivate fd revents = .returned s') :
    ∃ calls : List (ChannelPtr × Callback),
      s' = { s with history := calls.map (fun c => .called c.1 c.2) ++ s.history } := by
  simp only [channelEventActivate] at h
  split_ifs at h with hneg hge
  · cases h
    exact ⟨[], rfl⟩
  · cases h
    exact ⟨[], rfl⟩
  · cases hentry : s.entry fd with
    | none => simp [hentry] at h
    | some channel =>
      simp only [hentry] at h
      split_ifs at h with hfd
      cases h
      refine ⟨((callbacksFor (s.channels channel) revents).map (Prod.mk channel)).reverse, ?_⟩
      rw [List.map_reverse, List.map_map]
      rfl

/-- The round does not touch the pending list. -/
lemma next_pending {s s' : System} (h : s.step .next = .returned s') :
    s'.loop.pending = s.loop.pending := by
  cases htodo : s.todo with
  | nil =>
    simp only [step, htodo] at h
    cases h
    rfl
  | cons task rest =>
    simp only [step, htodo] at h
    cases task with
    | event fd events =>
      simp only [perform] at h
      split_ifs at h <;> cases h <;> rfl
    | slot i n | count i n =>
      cases h
      rfl
    | activate fd revents =>
      obtain ⟨calls, rfl⟩ := channelEventActivate_cases h
      rfl

structure EpollSound (s : System) (rest : List ChannelElement) : Prop extends Queued s rest where
  isEpoll : ∃ interest, s.loop.eventDispatcher = .epoll interest
  watched : ∀ fd, s.Watches fd →
    s.entry fd ≠ none ∧ s.isOpen fd = true ∧ fd ∉ s.addsIn rest
  tasks : ∀ fd ∈ eventFds s.todo ++ activateFds s.todo,
    s.isOpen fd = true ∧ fd ∉ s.addsIn rest
  events_nodup : (eventFds s.todo).Nodup
  disjoint : ∀ fd ∈ activateFds s.todo, fd ∉ eventFds s.todo

lemma epollSound_init : EpollSound (init (.epoll fun _ => none)) [] where
  toQueued := queued_init _
  isEpoll := ⟨_, rfl⟩
  watched := by simp [Watches, Dispatcher.Watches, init]
  tasks := by simp [init, eventFds, activateFds]
  events_nodup := by simp [init, eventFds]
  disjoint := by simp [init, activateFds]

namespace EpollSound

variable {s s' : System} {rest : List ChannelElement} {e : ChannelElement}

lemma accept (h : EpollSound s rest) {c : Channel} (hnonneg : 0 ≤ c.fd)
    (hclosed : s.isOpen c.fd = false) :
    EpollSound (s.accept c) (rest ++ [⟨.add, s.created⟩]) := by
  have hkeep : ∀ fd, s.isOpen fd = true → fd ∉ s.addsIn rest →
      (s.accept c).isOpen fd = true ∧
        fd ∉ (s.accept c).addsIn (rest ++ [⟨.add, s.created⟩]) := by
    intro fd hopen hfd
    have hne : fd ≠ c.fd := by
      rintro rfl
      rw [hclosed] at hopen
      cases hopen
    rw [h.toQueued.addsIn_accept c]
    exact ⟨by simpa [System.accept, hne] using hopen, by simp [hfd, hne]⟩
  refine ⟨h.toQueued.accept hnonneg hclosed, h.isEpoll, ?_, ?_, h.events_nodup, h.disjoint⟩
  · intro fd hfd
    obtain ⟨hentry, hopen, hadds⟩ := h.watched fd hfd
    exact ⟨hentry, hkeep fd hopen hadds⟩
  · intro fd hfd
    obtain ⟨hopen, hadds⟩ := h.tasks fd hfd
    exact hkeep fd hopen hadds

lemma enqueue (h : EpollSound s rest) (htype : e.type ≠ .add) (hlt : e.channel < s.created) :
    EpollSound (s.enqueue e) (rest ++ [e]) := by
  have hadds : (s.enqueue e).addsIn (rest ++ [e]) = s.addsIn rest :=
    addsIn_append_of_ne htype rest
  refine ⟨h.toQueued.enqueue htype hlt, h.isEpoll, ?_, ?_, h.events_nodup, h.disjoint⟩
  · rw [hadds]
    exact h.watched
  · rw [hadds]
    exact h.tasks

/-- A step that leaves the records alone and leads to a round with no new descriptors in it. -/
lemma of_eq (h : EpollSound s rest) (hentry : s'.entry = s.entry)
    (hdisp : s'.loop.eventDispatcher = s.loop.eventDispatcher) (hfd : s'.fdOf = s.fdOf)
    (hcreated : s'.created = s.created) (hopen : s'.isOpen = s.isOpen)
    (htasks : ∀ fd ∈ eventFds s'.todo ++ activateFds s'.todo,
      s.isOpen fd = true ∧ fd ∉ s.addsIn rest)
    (hnodup : (eventFds s'.todo).Nodup)
    (hdisjoint : ∀ fd ∈ activateFds s'.todo, fd ∉ eventFds s'.todo) : EpollSound s' rest := by
  have hadds : s'.addsIn rest = s.addsIn rest :=
    addsIn_congr fun e _ => congrFun hfd e.channel
  refine ⟨h.toQueued.of_eq hentry hfd hcreated hopen, hdisp ▸ h.isEpoll, ?_, ?_, hnodup,
    hdisjoint⟩
  · unfold Watches
    rw [hdisp, hentry, hopen, hadds]
    exact h.watched
  · rw [hopen, hadds]
    exact htasks

lemma handleElement (h : EpollSound s (e :: rest)) {served : ℤ → Bool}
    (hstep : s.handleElement served e = .returned s') : EpollSound s' rest := by
  have hqueued := h.toQueued.handleElement hstep
  obtain ⟨hsame, -, heffect⟩ := handleElement_cases hstep
  obtain ⟨hepoll, hwatch⟩ := heffect.watch h.toQueued h.isEpoll
  have htasks : ∀ fd ∈ eventFds s'.todo ++ activateFds s'.todo,
      s'.isOpen fd = true ∧ fd ∉ s'.addsIn rest := by
    rw [hsame.todo, hsame.isOpen, hsame.addsIn]
    exact fun fd hfd => ⟨(h.tasks fd hfd).1, mt mem_addsIn_cons (h.tasks fd hfd).2⟩
  refine ⟨hqueued, hepoll, ?_, htasks, hsame.todo ▸ h.events_nodup, hsame.todo ▸ h.disjoint⟩
  intro fd hw
  rw [hsame.isOpen, hsame.addsIn]
  have hold : s.Watches fd → s.entry fd ≠ none ∧ s.isOpen fd = true ∧ fd ∉ s.addsIn rest := by
    intro hw
    obtain ⟨hentry, hopen, hadds⟩ := h.watched fd hw
    exact ⟨hentry, hopen, mt mem_addsIn_cons hadds⟩
  cases hwatch with
  | kept entry watches =>
    rw [entry]
    exact hold ((watches fd).1 hw)
  | entered type hopen entry watches =>
    rw [entry]
    by_cases hfd : fd = s.fdOf e.channel
    · subst hfd
      exact ⟨by simp, hopen, h.toQueued.fdOf_not_mem type⟩
    · rw [Function.update_of_ne hfd]
      exact hold (((watches fd).1 hw).resolve_left hfd)
  | removed _ entry watches =>
    obtain ⟨hfd, hw⟩ := (watches fd).1 hw
    rw [entry, Function.update_of_ne hfd]
    exact hold hw

/-- The error branch: the event at hand is the only thing the round still had to do for its
descriptor. -/
lemma closeFd (h : EpollSound s rest) {fd : ℤ} {events : BitVec 32} {todo : List Task}
    (htodo : s.todo = .event fd events :: todo) :
    EpollSound { s.closeFd fd with todo := todo } rest := by
  have hevents : eventFds s.todo = fd :: eventFds todo := by
    rw [htodo]
    rfl
  have hactivates : activateFds s.todo = activateFds todo := by
    rw [htodo]
    rfl
  have hnodup := h.events_nodup
  rw [hevents, List.nodup_cons] at hnodup
  have hfd := (h.tasks fd (by simp [hevents])).2
  obtain ⟨interest, hepoll⟩ := h.isEpoll
  refine ⟨(h.toQueued.closeFd hfd).of_eq rfl rfl rfl rfl, ?_, ?_, ?_, hnodup.2, ?_⟩
  · exact ⟨Function.update interest fd none, by simp [System.closeFd, hepoll]⟩
  · intro fd' hwatch
    have hne : fd' ≠ fd := by
      rintro rfl
      simp [Watches, Dispatcher.Watches, System.closeFd, hepoll] at hwatch
    have hw : s.Watches fd' := by
      simpa [Watches, Dispatcher.Watches, System.closeFd, hepoll, hne] using hwatch
    obtain ⟨hentry, hopen, hadds⟩ := h.watched fd' hw
    exact ⟨hentry, by simpa [System.closeFd, hne] using hopen, hadds⟩
  · intro fd' hfd'
    have hmem : fd' ∈ eventFds s.todo ++ activateFds s.todo := by
      rw [hevents, hactivates]
      exact List.mem_cons_of_mem fd hfd'
    have hne : fd' ≠ fd := by
      rintro rfl
      rcases List.mem_append.1 hfd' with hin | hin
      · exact hnodup.1 hin
      · exact h.disjoint fd' (hactivates ▸ hin) (by simp [hevents])
    obtain ⟨hopen, hadds⟩ := h.tasks fd' hmem
    exact ⟨by simpa [System.closeFd, hne] using hopen, hadds⟩
  · intro fd' hfd' hin
    exact h.disjoint fd' (hactivates ▸ hfd') (hevents ▸ List.mem_cons_of_mem fd hin)

/-- An event without an error is replaced by its activations. -/
lemma expand (h : EpollSound s rest) {fd : ℤ} {events : BitVec 32} {todo : List Task}
    (htodo : s.todo = .event fd events :: todo) :
    EpollSound { s with todo := (epollActivations events).map (.activate fd) ++ todo } rest := by
  have hevents : eventFds s.todo = fd :: eventFds todo := by
    rw [htodo]
    rfl
  have hactivates : activateFds s.todo = activateFds todo := by
    rw [htodo]
    rfl
  have hnodup := h.events_nodup
  rw [hevents, List.nodup_cons] at hnodup
  refine h.of_eq rfl rfl rfl rfl rfl ?_ ?_ ?_
  · intro fd' hfd'
    apply h.tasks
    rw [hevents, hactivates]
    rcases List.mem_append.1 hfd' with hin | hin
    · rw [eventFds_map_activate] at hin
      exact List.mem_append_left _ (List.mem_cons_of_mem fd hin)
    · rcases activateFds_map_activate fd _ todo fd' hin with rfl | hin
      · simp
      · exact List.mem_append_right _ hin
  · rw [eventFds_map_activate]
    exact hnodup.2
  · intro fd' hfd'
    rw [eventFds_map_activate]
    rcases activateFds_map_activate fd _ todo fd' hfd' with rfl | hin
    · exact hnodup.1
    · exact fun hin' => h.disjoint fd' (hactivates ▸ hin) (hevents ▸ List.mem_cons_of_mem fd hin')

lemma next (h : EpollSound s rest) (hstep : s.step .next = .returned s') :
    EpollSound s' rest := by
  obtain ⟨interest, hepoll⟩ := h.isEpoll
  cases htodo : s.todo with
  | nil =>
    simp only [System.step, htodo] at hstep
    cases hstep
    exact h
  | cons task todo =>
    simp only [System.step, htodo] at hstep
    have htasks := h.tasks
    have hnodup := h.events_nodup
    have hdisjoint := h.disjoint
    rw [htodo] at htasks hnodup hdisjoint
    cases task with
    | event fd events =>
      simp only [perform] at hstep
      split_ifs at hstep with herr
      · cases hstep
        exact h.closeFd htodo
      · cases hstep
        exact h.expand htodo
    | slot i n =>
      have hnone : s.scanSlot i n = [] := by simp [scanSlot, hepoll]
      simp only [perform, hnone, List.nil_append] at hstep
      cases hstep
      exact h.of_eq rfl rfl rfl rfl rfl htasks hnodup hdisjoint
    | count i n =>
      cases hstep
      refine h.of_eq rfl rfl rfl rfl rfl ?_ ?_ ?_ <;> dsimp only <;> split_ifs
      exacts [htasks, htasks, hnodup, hnodup, hdisjoint, hdisjoint]
    | activate fd revents =>
      obtain ⟨calls, rfl⟩ := channelEventActivate_cases hstep
      refine h.of_eq rfl rfl rfl rfl rfl ?_ hnodup ?_
      · intro fd' hfd'
        apply htasks
        rcases List.mem_append.1 hfd' with hin | hin
        · exact List.mem_append_left _ hin
        · exact List.mem_append_right _ (List.mem_cons_of_mem fd hin)
      · exact fun fd' hin => hdisjoint fd' (List.mem_cons_of_mem fd hin)

theorem step (h : EpollSound s s.loop.pending) {op : Op} (hp : s.Possible op)
    (hstep : s.step op = .returned s') : EpollSound s' s'.loop.pending := by
  obtain ⟨interest, hepoll⟩ := h.isEpoll
  cases op with
  | accept channel =>
    cases hstep
    exact h.accept hp.1 hp.2
  | request type channel =>
    cases hstep
    exact h.enqueue hp.1 hp.2
  | setEvents channel events =>
    cases hstep
    refine h.of_eq rfl rfl ?_ rfl rfl h.tasks h.events_nodup h.disjoint
    exact fdOf_setEvents s channel events
  | drain served =>
    refine drain_preserves EpollSound (fun _ _ _ _ hs hs' => hs.handleElement hs') ?_ h hstep
    rintro s s' hs rfl
    exact hs.of_eq rfl rfl rfl rfl rfl hs.tasks hs.events_nodup hs.disjoint
  | epollWait ready =>
    cases hstep
    obtain ⟨-, -, hnodup, hready⟩ := hp
    rw [hepoll] at hready
    refine h.of_eq rfl rfl rfl rfl rfl ?_ ?_ ?_
    · simp only [System.epollWait, eventFds_map_event, activateFds_map_event, List.append_nil]
      intro fd hfd
      obtain ⟨event, hevent, rfl⟩ := List.mem_map.1 hfd
      have hw : s.Watches event.1 := by
        rw [Watches, hepoll]
        exact hready event hevent
      exact (h.watched _ hw).2
    · simpa only [System.epollWait, eventFds_map_event] using hnodup
    · simp [System.epollWait, activateFds_map_event]
  | pollWait revents =>
    rw [System.Possible, hepoll] at hp
    exact hp.2.elim
  | next =>
    have hpending : s'.loop.pending = s.loop.pending := next_pending hstep
    rw [hpending]
    exact h.next hstep

end EpollSound

end System

end Yolanda
