import CPYuZe.Yolanda.Registration

/-!
# The channel map and the interest set of epoll

The map and the interest set are meant to name the same descriptors, and the entry of a
descriptor is meant to be the channel last added for it.  What a history says about a
descriptor is `expected`: the last add request for it that has been handled, unless a remove
request or the closing of the descriptor came after.

One operation breaks the agreement.  The error branch of `epoll_dispatch` closes a descriptor,
by which the kernel forgets it, and leaves the map alone; when the kernel hands the number out
again, `event_loop_handle_pending_add` finds the slot taken and drops the new channel.
`map_agrees_with_interest` is what holds as long as this branch is taken only for descriptors
without an entry.
-/

namespace Yolanda

namespace System

/-- The channel last added for a descriptor, if there is one still. -/
def expected : List Happening → ℤ → Option ChannelPtr
  | [] => fun _ => none
  | .handled .add fd channel :: past => Function.update (expected past) fd (some channel)
  | .handled .remove fd _ :: past => Function.update (expected past) fd none
  | .handled .update _ _ :: past => expected past
  | .closed fd :: past => Function.update (expected past) fd none
  | .waited _ _ :: past => expected past
  | .called _ _ :: past => expected past

/-- Callbacks do not count. -/
lemma expected_called (calls : List (ChannelPtr × Callback)) (past : List Happening) :
    expected (calls.map (fun c => .called c.1 c.2) ++ past) = expected past := by
  induction calls with
  | nil => rfl
  | cons c calls ih => exact ih

/-- A descriptor has an entry exactly when it is watched, and the entry is the channel last
added for it. -/
def Agrees (s : System) : Prop :=
  ∀ fd, (s.entry fd ≠ none ↔ s.Watches fd) ∧ s.entry fd = expected s.history fd

/-- If this step is a drain that comes back, the records agree after it. -/
def AgreesAfterDrain (s : System) (op : Op) : Prop :=
  ∀ served, op = .drain served → ∀ s', s.step op = .returned s' → s'.Agrees

/-- The error branch is not taken for a descriptor with an entry, and a drain that has to make
room for a descriptor gets it. -/
def MapKept (s : System) : Op → Prop
  | .drain served => ∀ n, served n = true
  | .next => ∀ fd events rest, s.todo = .event fd events :: rest →
      events &&& EPOLLERR ≠ 0#32 ∨ events &&& EPOLLHUP ≠ 0#32 → s.entry fd = none
  | _ => True

/-- The records agree, up to the requests that are still to be handled. -/
structure InStep (s : System) (rest : List ChannelElement) : Prop extends EpollSound s rest where
  entry_expected : s.entry = expected s.history
  entry_watched : ∀ fd, s.entry fd ≠ none → s.Watches fd
  adds_free : ∀ fd ∈ s.addsIn rest, s.entry fd = none
  closed_free : ∀ fd, s.isOpen fd = false → s.entry fd = none

lemma inStep_init : InStep (init (.epoll fun _ => none)) [] where
  toEpollSound := epollSound_init
  entry_expected := by
    funext fd
    simp [entry, init, mapInit, ChannelMap.entry, expected]
  entry_watched := by simp [entry, init, mapInit, ChannelMap.entry]
  adds_free := by simp [addsIn]
  closed_free := by simp [entry, init, mapInit, ChannelMap.entry]

namespace InStep

variable {s s' : System} {rest : List ChannelElement} {e : ChannelElement}

lemma agrees (h : InStep s rest) : s.Agrees :=
  fun fd => ⟨⟨h.entry_watched fd, fun hw => (h.watched fd hw).1⟩,
    congrFun h.entry_expected fd⟩

lemma accept (h : InStep s rest) {c : Channel} (hnonneg : 0 ≤ c.fd)
    (hclosed : s.isOpen c.fd = false) :
    InStep (s.accept c) (rest ++ [⟨.add, s.created⟩]) := by
  refine ⟨h.toEpollSound.accept hnonneg hclosed, h.entry_expected, h.entry_watched, ?_, ?_⟩
  · rw [h.toQueued.addsIn_accept c]
    intro fd hfd
    rcases List.mem_append.1 hfd with hfd | hfd
    · exact h.adds_free fd hfd
    · rw [List.mem_singleton.1 hfd]
      exact h.closed_free c.fd hclosed
  · intro fd hfd
    apply h.closed_free
    by_cases hne : fd = c.fd
    · exact hne ▸ hclosed
    · simpa [System.accept, hne] using hfd

lemma enqueue (h : InStep s rest) (htype : e.type ≠ .add) (hlt : e.channel < s.created) :
    InStep (s.enqueue e) (rest ++ [e]) := by
  refine ⟨h.toEpollSound.enqueue htype hlt, h.entry_expected, h.entry_watched, ?_, h.closed_free⟩
  show ∀ fd ∈ s.addsIn (rest ++ [e]), s.entry fd = none
  rw [addsIn_append_of_ne htype]
  exact h.adds_free

/-- A step that leaves the records and what is expected of them alone. -/
lemma of_eq (h : InStep s rest) (hs' : EpollSound s' rest) (hentry : s'.entry = s.entry)
    (hdisp : s'.loop.eventDispatcher = s.loop.eventDispatcher) (hfd : s'.fdOf = s.fdOf)
    (hopen : s'.isOpen = s.isOpen) (hexpected : expected s'.history = expected s.history) :
    InStep s' rest := by
  refine ⟨hs', ?_, ?_, ?_, ?_⟩
  · rw [hentry, hexpected]
    exact h.entry_expected
  · rw [hentry]
    unfold Watches
    rw [hdisp]
    exact h.entry_watched
  · rw [hentry, addsIn_congr fun e _ => congrFun hfd e.channel]
    exact h.adds_free
  · rw [hentry, hopen]
    exact h.closed_free

/-- A request that is handled does to the map what it does to what is expected of it. -/
lemma entry_handled (h : InStep s (e :: rest)) {served : ℤ → Bool} (hserved : ∀ n, served n = true)
    (heffect : Effect served s s' e)
    (hhistory : s'.history = .handled e.type (s.fdOf e.channel) e.channel :: s.history) :
    s'.entry = expected s'.history := by
  rw [hhistory]
  cases heffect with
  | kept entry _ refused absent =>
    obtain ⟨type, channel⟩ := e
    cases type with
    | add =>
      have hmem : s.fdOf channel ∈ s.addsIn (⟨.add, channel⟩ :: rest) := by
        simp [addsIn_cons_add]
      rcases refused rfl with hneg | ⟨n, hn⟩ | htaken
      · have hnonneg := (h.adds_open _ hmem).1
        exact absurd hneg (by simpa using hnonneg)
      · rw [hserved n] at hn
        cases hn
      · exact absurd (h.adds_free _ hmem) htaken
    | remove =>
      have hnone := absent rfl
      rw [expected, entry, ← h.entry_expected]
      exact (Function.update_eq_self_iff.2 hnone.symm).symm
    | update =>
      rw [expected, entry]
      exact h.entry_expected
  | entered type _ _ entry => rw [type, expected, entry, h.entry_expected]
  | removed type _ _ entry => rw [type, expected, entry, h.entry_expected]
  | updated type entry => rw [type, expected, entry, h.entry_expected]

lemma handleElement (h : InStep s (e :: rest)) {served : ℤ → Bool}
    (hserved : ∀ n, served n = true) (hstep : s.handleElement served e = .returned s') :
    InStep s' rest := by
  have hsound := h.toEpollSound.handleElement hstep
  obtain ⟨hsame, hhistory, heffect⟩ := handleElement_cases hstep
  obtain ⟨-, hwatch⟩ := heffect.watch h.toQueued h.isEpoll
  refine ⟨hsound, h.entry_handled hserved heffect hhistory, ?_, ?_, ?_⟩
  · intro fd hfd
    cases hwatch with
    | kept entry watches =>
      rw [entry] at hfd
      exact (watches fd).2 (h.entry_watched fd hfd)
    | entered _ _ entry watches =>
      rw [watches]
      by_cases hne : fd = s.fdOf e.channel
      · exact .inl hne
      · rw [entry, Function.update_of_ne hne] at hfd
        exact .inr (h.entry_watched fd hfd)
    | removed _ entry watches =>
      rw [watches]
      by_cases hne : fd = s.fdOf e.channel
      · rw [entry, hne, Function.update_self] at hfd
        exact absurd rfl hfd
      · rw [entry, Function.update_of_ne hne] at hfd
        exact ⟨hne, h.entry_watched fd hfd⟩
  · rw [hsame.addsIn]
    intro fd hfd
    by_contra hentry
    rcases heffect.of_entry hentry with hold | ⟨type, rfl⟩
    · exact hold (h.adds_free fd (mem_addsIn_cons hfd))
    · exact h.toQueued.fdOf_not_mem type hfd
  · rw [hsame.isOpen]
    intro fd hfd
    by_contra hentry
    rcases heffect.of_entry hentry with hold | ⟨type, rfl⟩
    · exact hold (h.closed_free fd hfd)
    · have hopen := (h.adds_open (s.fdOf e.channel) (by simp [addsIn_cons_add type])).2
      rw [hfd] at hopen
      cases hopen

/-- The error branch, taken for a descriptor without an entry. -/
lemma closeFd (h : InStep s rest) {fd : ℤ} {events : BitVec 32} {todo : List Task}
    (htodo : s.todo = .event fd events :: todo) (hnone : s.entry fd = none) :
    InStep { s.closeFd fd with todo := todo } rest := by
  obtain ⟨interest, hepoll⟩ := h.isEpoll
  refine ⟨h.toEpollSound.closeFd htodo, ?_, ?_, h.adds_free, ?_⟩
  · show s.entry = Function.update (expected s.history) fd none
    rw [← h.entry_expected]
    exact (Function.update_eq_self_iff.2 hnone.symm).symm
  · intro fd' hfd'
    have hne : fd' ≠ fd := by
      rintro rfl
      exact hfd' hnone
    have hw := h.entry_watched fd' hfd'
    rw [Watches, hepoll] at hw
    simpa [Watches, Dispatcher.Watches, System.closeFd, hepoll, hne] using hw
  · intro fd' hfd'
    by_cases hne : fd' = fd
    · exact hne ▸ hnone
    · exact h.closed_free fd' (by simpa [System.closeFd, hne] using hfd')

lemma next (h : InStep s rest) (hkept : s.MapKept .next)
    (hstep : s.step .next = .returned s') : InStep s' rest := by
  have hsound := h.toEpollSound.next hstep
  cases htodo : s.todo with
  | nil =>
    simp only [System.step, htodo] at hstep
    cases hstep
    exact h
  | cons task todo =>
    simp only [System.step, htodo] at hstep
    cases task with
    | event fd events =>
      simp only [perform] at hstep
      split_ifs at hstep with herr
      · cases hstep
        exact h.closeFd htodo (hkept fd events todo htodo herr)
      · cases hstep
        exact h.of_eq hsound rfl rfl rfl rfl rfl
    | slot i n | count i n =>
      cases hstep
      exact h.of_eq hsound rfl rfl rfl rfl rfl
    | activate fd revents =>
      obtain ⟨calls, rfl⟩ := channelEventActivate_cases hstep
      exact h.of_eq hsound rfl rfl rfl rfl (expected_called calls s.history)

theorem step (h : InStep s s.loop.pending) {op : Op} (hp : s.Possible op) (hkept : s.MapKept op)
    (hstep : s.step op = .returned s') : InStep s' s'.loop.pending := by
  have hsound := h.toEpollSound.step hp hstep
  cases op with
  | accept channel =>
    cases hstep
    exact h.accept hp.1 hp.2
  | request type channel =>
    cases hstep
    exact h.enqueue hp.1 hp.2
  | setEvents channel events =>
    cases hstep
    exact h.of_eq hsound rfl rfl (fdOf_setEvents s channel events) rfl rfl
  | drain served =>
    refine drain_preserves InStep (fun _ _ _ _ hs hs' => hs.handleElement hkept hs') ?_ h hstep
    rintro s s' hs rfl
    refine hs.of_eq ?_ rfl rfl rfl rfl rfl
    exact hs.toEpollSound.of_eq rfl rfl rfl rfl rfl hs.tasks hs.events_nodup hs.disjoint
  | epollWait ready =>
    cases hstep
    exact h.of_eq hsound rfl rfl rfl rfl rfl
  | pollWait revents =>
    obtain ⟨interest, hepoll⟩ := h.isEpoll
    rw [System.Possible, hepoll] at hp
    exact hp.2.elim
  | next =>
    rw [next_pending hstep]
    exact h.next hkept hstep

end InStep

/-- As long as the error branch of `epoll_dispatch` is not taken for a descriptor with an entry
and the map can grow, the map and the interest set agree after every drain. -/
theorem map_agrees_with_interest (ops : List Op)
    (hp : Outcome.Throughout step Possible (init (.epoll fun _ => none)) ops)
    (hkept : Outcome.Throughout step MapKept (init (.epoll fun _ => none)) ops) :
    Outcome.Throughout step AgreesAfterDrain (init (.epoll fun _ => none)) ops := by
  have hinv : ∀ s op s', InStep s s.loop.pending → s.Possible op ∧ s.MapKept op →
      s.step op = .returned s' → InStep s' s'.loop.pending :=
    fun s op s' h hop hstep => h.step hop.1 hop.2 hstep
  refine (hp.and hkept).imp (fun s => InStep s s.loop.pending) ?_ hinv inStep_init
  intro s op h hop served _ s' hstep
  exact (hinv s op s' h hop hstep).agrees

theorem map_agrees_with_interest_reported :
    Outcome.Throughout step AgreesAfterDrain (init (.epoll fun _ => none))
      (reported EPOLLIN) := by
  refine map_agrees_with_interest _ (reported_possible EPOLLIN) ?_
  refine (Outcome.throughout_cons_returned rfl _).2 ⟨trivial, ?_⟩
  refine (Outcome.throughout_cons_returned rfl _).2 ⟨fun _ => rfl, ?_⟩
  refine (Outcome.throughout_cons_returned rfl _).2 ⟨trivial, ?_, fun _ _ => trivial⟩
  intro fd events rest htodo herr
  cases htodo
  exact absurd herr (by decide)

/-- Connection 0 hangs up, and connection 1 is accepted on its descriptor. -/
def hangUp : List Op := reported EPOLLHUP ++ [.accept (connectionChannel 5 1)]

lemma hangUp_possible :
    Outcome.Throughout step Possible (init (.epoll fun _ => none))
      (hangUp ++ [.drain fun _ => true]) := by
  refine Outcome.throughout_append.2 ⟨?_, fun _ _ => ⟨trivial, fun _ _ => trivial⟩⟩
  refine Outcome.throughout_append.2 ⟨reported_possible EPOLLHUP, fun s hs => ?_⟩
  cases hs
  exact ⟨⟨by decide, rfl⟩, fun _ _ => trivial⟩

lemma hangUp_run : ∃ s s', Outcome.run step (init (.epoll fun _ => none)) hangUp = .returned s ∧
    s.step (.drain fun _ => true) = .returned s' ∧ s'.entry 5 = some 0 ∧ ¬ s'.Watches 5 :=
  ⟨_, _, rfl, rfl, rfl, by decide⟩

/-- A connection accepted on a descriptor that the error branch has closed is neither entered
in the map nor watched. -/
theorem map_disagrees_after_hangUp :
    ¬ ∀ ops, Outcome.Throughout step Possible (init (.epoll fun _ => none)) ops →
      Outcome.Throughout step AgreesAfterDrain (init (.epoll fun _ => none)) ops := by
  intro h
  obtain ⟨s, s', hrun, hdrain, hentry, hwatch⟩ := hangUp_run
  have hagrees := (h _ hangUp_possible).last hrun _ rfl s' hdrain 5
  exact hwatch (hagrees.1.1 (by simp [hentry]))

end System

end Yolanda
