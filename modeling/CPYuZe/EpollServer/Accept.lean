import CPYuZe.EpollServer.Server

/-!
# Accepting all there is

`OnEpAccept` is not called again for a connection that was there when it returned.  It should
return when `accept` says that there is no connection left, with every connection registered or
closed (`LeavesNone`).  It does so exactly if nothing fails (`leavesNone_iff`): at the first call
that fails it returns, whatever is left in the backlog (`onEpAccept_append_of_failed`), and a
connection that it has accepted but not registered stays open (`closed_notMem_onEpAccept`).
-/

namespace EpollServer

def Event.acceptedFd : Event → Option ℕ
  | .accepted fd => some fd
  | _ => none

def Attempt.fd : Attempt → Option ℕ
  | .connection c => some c.fd
  | .fails _ => none

/-- What `OnEpAccept` should come to. -/
structure LeavesNone (backlog : List Attempt) (trace : List Event) : Prop where
  nonePending : .perror "Accept" .EAGAIN ∈ trace
  others : trace.filterMap Event.acceptedFd = backlog.filterMap Attempt.fd
  disposed : ∀ fd, .accepted fd ∈ trace → .registered fd ∈ trace ∨ .closed fd ∈ trace

/-- `SetNonblocking` and `epoll_ctl` succeed. -/
structure Connection.Succeeds (c : Connection) : Prop where
  getfl : c.getfl.isOk
  setfl : c.setfl.isOk
  epollCtl : c.epollCtl.isOk

def Attempt.Succeeds : Attempt → Prop
  | .connection c => c.Succeeds
  | .fails _ => False

/-- What happens about a connection that says nothing about where it ends up. -/
def Event.Quiet : Event → Prop
  | .accepted _ | .registered _ | .closed _ => False
  | .perror text _ => text ≠ "Accept"
  | _ => True

variable {backlog : List Attempt} {events : List Event}

lemma acceptedFd_of_quiet (h : ∀ e ∈ events, e.Quiet) :
    events.filterMap Event.acceptedFd = [] := by
  rw [List.filterMap_eq_nil_iff]
  intro e he
  have hquiet := h e he
  cases e with
  | accepted fd => exact hquiet.elim
  | _ => rfl

lemma announce_quiet (c : Connection) : ∀ e ∈ c.announce, e.Quiet := by
  intro e he
  unfold Connection.announce at he
  split at he
  · rw [List.mem_singleton.1 he]
    trivial
  · exact absurd he List.not_mem_nil

/-- `SetNonblocking` succeeds if both calls of `fcntl` do. -/
lemma setNonblocking_spec (sock : ℕ) (getfl : Except Errno ℕ) (setfl : Except Errno Unit) :
    ∃ events, setNonblocking sock getfl setfl = (events, getfl.isOk && setfl.isOk) ∧
      ∀ e ∈ events, e.Quiet := by
  cases getfl with
  | error e => exact ⟨_, rfl, by simp [Event.Quiet]⟩
  | ok opts =>
    cases setfl with
    | error e => exact ⟨_, rfl, by simp [Event.Quiet]⟩
    | ok _ => exact ⟨_, rfl, by simp [Event.Quiet]⟩

/-- A connection is accepted.  If everything succeeds it is registered, and if not nothing becomes
of it. -/
lemma acceptTurn_cases (c : Connection) :
    ∃ quiet : List Event, (∀ e ∈ quiet, e.Quiet) ∧
      ((c.Succeeds ∧ acceptTurn c = (.accepted c.fd :: (quiet ++ [.registered c.fd]), true)) ∨
        (¬ c.Succeeds ∧ acceptTurn c = (.accepted c.fd :: quiet, false))) := by
  obtain ⟨events, hset, hevents⟩ := setNonblocking_spec c.fd c.getfl c.setfl
  have hquiet : ∀ e ∈ c.announce ++ events, e.Quiet := by
    intro e he
    rcases List.mem_append.1 he with he | he
    · exact announce_quiet c e he
    · exact hevents e he
  unfold acceptTurn
  rw [hset]
  cases hok : (c.getfl.isOk && c.setfl.isOk) with
  | false =>
    refine ⟨_, hquiet, .inr ⟨fun h => ?_, rfl⟩⟩
    rw [h.getfl, h.setfl] at hok
    exact absurd hok (by decide)
  | true =>
    obtain ⟨hgetfl, hsetfl⟩ := Bool.and_eq_true_iff.1 hok
    cases hctl : c.epollCtl with
    | ok _ =>
      refine ⟨_, hquiet, .inl ⟨⟨hgetfl, hsetfl, ?_⟩, rfl⟩⟩
      rw [hctl]
      rfl
    | error e =>
      refine ⟨c.announce ++ events ++ [.perror "epoll_ctl" e], fun e' he' => ?_, .inr ⟨?_, rfl⟩⟩
      · rcases List.mem_append.1 he' with he' | he'
        · exact hquiet e' he'
        · rw [List.mem_singleton.1 he']
          show "epoll_ctl" ≠ "Accept"
          decide
      · intro h
        have hfalse := h.epollCtl
        rw [hctl] at hfalse
        exact Bool.false_ne_true hfalse

/-- `accept` is called again behind a connection exactly if everything about it succeeds. -/
lemma onEpAccept_cons (c : Connection) (backlog : List Attempt) :
    ∃ quiet : List Event, (∀ e ∈ quiet, e.Quiet) ∧
      ((c.Succeeds ∧ onEpAccept (.connection c :: backlog) =
          .accepted c.fd :: (quiet ++ .registered c.fd :: onEpAccept backlog)) ∨
        (¬ c.Succeeds ∧ ∀ backlog, onEpAccept (.connection c :: backlog) =
          .accepted c.fd :: quiet)) := by
  obtain ⟨quiet, hquiet, ⟨hok, hturn⟩ | ⟨hok, hturn⟩⟩ := acceptTurn_cases c
  · refine ⟨quiet, hquiet, .inl ⟨hok, ?_⟩⟩
    rw [onEpAccept, hturn]
    simp only [List.cons_append, List.append_assoc, List.nil_append]
  · refine ⟨quiet, hquiet, .inr ⟨hok, fun backlog => ?_⟩⟩
    rw [onEpAccept, hturn]

/-- If `accept` is heard to have no connection left, everything has succeeded. -/
lemma succeeds_of_nonePending (h : .perror "Accept" .EAGAIN ∈ onEpAccept backlog) :
    ∀ a ∈ backlog, a.Succeeds := by
  induction backlog with
  | nil => exact fun a ha => absurd ha List.not_mem_nil
  | cons a backlog ih =>
    cases a with
    | fails n =>
      have herror := List.mem_singleton.1 h
      exact absurd (Event.perror.inj herror).2 (by simp)
    | connection c =>
      obtain ⟨quiet, hquiet, ⟨hok, htrace⟩ | ⟨-, htrace⟩⟩ := onEpAccept_cons c backlog
      · rw [htrace, List.mem_cons, List.mem_append, List.mem_cons] at h
        rcases h with h | h | h | h
        · exact absurd h (by simp)
        · exact absurd rfl (hquiet _ h)
        · exact absurd h (by simp)
        · exact List.forall_mem_cons.2 ⟨hok, ih h⟩
      · rw [htrace backlog, List.mem_cons] at h
        rcases h with h | h
        · exact absurd h (by simp)
        · exact absurd rfl (hquiet _ h)

/-- If everything succeeds, all connections are accepted and registered. -/
lemma leavesNone_of_succeeds (h : ∀ a ∈ backlog, a.Succeeds) :
    LeavesNone backlog (onEpAccept backlog) := by
  induction backlog with
  | nil =>
    refine ⟨List.mem_singleton.2 rfl, rfl, fun fd hfd => ?_⟩
    exact absurd (List.mem_singleton.1 hfd) (by simp)
  | cons a backlog ih =>
    obtain ⟨ha, hbacklog⟩ := List.forall_mem_cons.1 h
    obtain ⟨hnone, hothers, hdisposed⟩ := ih hbacklog
    cases a with
    | fails n => exact ha.elim
    | connection c =>
      obtain ⟨quiet, hquiet, ⟨-, htrace⟩ | ⟨hfails, -⟩⟩ := onEpAccept_cons c backlog
      · have hrest : ∀ e ∈ onEpAccept backlog, e ∈ onEpAccept (.connection c :: backlog) := by
          intro e he
          rw [htrace]
          simp [he]
        refine ⟨hrest _ hnone, ?_, fun fd hfd => ?_⟩
        · rw [htrace, List.filterMap_cons, List.filterMap_append, acceptedFd_of_quiet hquiet,
            List.filterMap_cons, List.filterMap_cons]
          show c.fd :: List.filterMap Event.acceptedFd (onEpAccept backlog) = _
          rw [hothers]
          rfl
        · rw [htrace, List.mem_cons, List.mem_append, List.mem_cons] at hfd
          rcases hfd with hfd | hfd | hfd | hfd
          · left
            rw [htrace, Event.accepted.inj hfd]
            simp
          · exact (hquiet _ hfd).elim
          · exact absurd hfd (by simp)
          · exact (hdisposed fd hfd).imp (hrest _) (hrest _)
      · exact absurd ha hfails

/-- `OnEpAccept` leaves no connection in the backlog and loses none exactly if every call it makes
about one succeeds. -/
theorem leavesNone_iff (backlog : List Attempt) :
    LeavesNone backlog (onEpAccept backlog) ↔ ∀ a ∈ backlog, a.Succeeds :=
  ⟨fun h => succeeds_of_nonePending h.nonePending, leavesNone_of_succeeds⟩

/-- Two connections are waiting, and `epoll_ctl` fails for the first one: it stays open, and the
second one is not accepted. -/
theorem not_leavesNone_epollCtl :
    ¬ LeavesNone
      [.connection ⟨5, none, .ok 2, .ok (), .error (.other 12)⟩,
        .connection ⟨6, none, .ok 2, .ok (), .ok ()⟩]
      (onEpAccept
        [.connection ⟨5, none, .ok 2, .ok (), .error (.other 12)⟩,
          .connection ⟨6, none, .ok 2, .ok (), .ok ()⟩]) := by
  intro h
  exact absurd h.nonePending (by decide)

/-! ## What a failure leads to -/

/-- Behind a call that fails, nothing is accepted. -/
theorem onEpAccept_append_of_failed {a : Attempt} (ha : ¬ a.Succeeds)
    (front rest : List Attempt) : onEpAccept (front ++ a :: rest) = onEpAccept (front ++ [a]) := by
  induction front with
  | nil =>
    cases a with
    | fails n => rfl
    | connection c =>
      obtain ⟨quiet, -, ⟨hok, -⟩ | ⟨-, htrace⟩⟩ := onEpAccept_cons c rest
      · exact absurd hok ha
      · rw [List.nil_append, List.nil_append, htrace rest, htrace []]
  | cons b front ih =>
    cases b with
    | fails n => rfl
    | connection c => rw [List.cons_append, List.cons_append, onEpAccept, onEpAccept, ih]

/-- No connection is closed. -/
theorem closed_notMem_onEpAccept (backlog : List Attempt) (fd : ℕ) :
    .closed fd ∉ onEpAccept backlog := by
  intro h
  induction backlog with
  | nil => exact absurd (List.mem_singleton.1 h) (by simp)
  | cons a backlog ih =>
    cases a with
    | fails n => exact absurd (List.mem_singleton.1 h) (by simp)
    | connection c =>
      obtain ⟨quiet, hquiet, ⟨-, htrace⟩ | ⟨-, htrace⟩⟩ := onEpAccept_cons c backlog
      · rw [htrace, List.mem_cons, List.mem_append, List.mem_cons] at h
        rcases h with h | h | h | h
        · exact absurd h (by simp)
        · exact hquiet _ h
        · exact absurd h (by simp)
        · exact ih h
      · rw [htrace backlog, List.mem_cons] at h
        rcases h with h | h
        · exact absurd h (by simp)
        · exact hquiet _ h

end EpollServer
