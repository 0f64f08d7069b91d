import CPYuZe.ConnectionPool.IdleScan

/-!
# The order of the idle connections

The scan stops at the first connection that is not expired.  It need not look at the others, because
a connection is refreshed when it is put into the queue: as long as the clock does not go back, the
queue is in the order of `_alivetime` (`Aged.of_run`).  `scan_sound` draws the conclusion: when
the scan stops, the pool counts no more than `_init_size` connections or none of the idle ones is
expired, and all that it has deleted were.
-/

namespace ConnectionPool

variable {cfg : Config} {s s' : Pool} {bound : ℤ}

/-- The idle connections, from the one refreshed first to the one refreshed last. -/
def Ordered (s : Pool) : Prop :=
  s.connectionQue.Pairwise fun conn conn' => s.alivetime conn ≤ s.alivetime conn'

/-- The clock has not gone back. -/
def Monotone (s : Pool) : Prop := s.readings.Pairwise (· ≤ ·)

/-! ## Where the scan stops -/

/-- The scan has deleted the first `k` idle connections, and all of them were expired when it looked
at them.  The pool counts no more than `_init_size` connections now, or the first one of those that
are left is not expired by the last reading of the clock. -/
structure StopsBehind (cfg : Config) (s : Pool) (ts : List ℤ) (s' : Pool) (k : ℕ) : Prop where
  que : s'.connectionQue = s.connectionQue.drop k
  deleted : s'.deleted = (s.connectionQue.take k).reverse ++ s.deleted
  expired : ∀ i < k, ∃ conn t,
    s.connectionQue[i]? = some conn ∧ ts[i]? = some t ∧ Expired cfg s conn t
  alivetime : s'.alivetime = s.alivetime
  readings : s.readings <+: s'.readings
  stops : s'.connectionCnt ≤ cfg.initSize ∨ ∃ p t, s'.connectionQue.head? = some p ∧
    s'.readings.getLast? = some t ∧ ¬ Expired cfg s' p t

lemma exists_stopsBehind {ts : List ℤ} (h : s.scanConnectionTask cfg ts = .returned s') :
    ∃ k, StopsBehind cfg s ts s' k := by
  induction ts generalizing s with
  | nil => exact absurd h (by simp [Pool.scanConnectionTask])
  | cons t ts ih =>
    rw [Pool.scanConnectionTask] at h
    by_cases hcnt : cfg.initSize < s.connectionCnt
    · cases hque : s.connectionQue with
      | nil =>
        rw [Pool.scanTurn_empty hcnt hque] at h
        exact absurd h (by simp)
      | cons p rest =>
        by_cases hexpired : Expired cfg s p t
        · rw [Pool.scanTurn_expired hcnt hque hexpired] at h
          obtain ⟨k, hk⟩ := ih h
          refine ⟨k + 1, ?_, ?_, fun i hi => ?_, hk.alivetime, ?_, hk.stops⟩
          · rw [hque]
            exact hk.que
          · rw [hk.deleted, hque, List.take_succ_cons, List.reverse_cons, List.append_assoc]
            rfl
          · rw [hque]
            cases i with
            | zero => exact ⟨p, t, rfl, rfl, hexpired⟩
            | succ i => exact hk.expired i (Nat.lt_of_succ_lt_succ hi)
          · exact (List.prefix_append _ _).trans hk.readings
        · rw [Pool.scanTurn_fresh hcnt hque hexpired] at h
          obtain rfl := Outcome.returned.inj h
          refine ⟨0, rfl, rfl, fun i hi => absurd hi (Nat.not_lt_zero i), rfl,
            List.prefix_append _ _, .inr ⟨p, t, ?_, List.getLast?_concat, hexpired⟩⟩
          exact congrArg List.head? hque
    · rw [Pool.scanTurn_of_le (not_lt.1 hcnt)] at h
      obtain rfl := Outcome.returned.inj h
      exact ⟨0, rfl, rfl, fun i hi => absurd hi (Nat.not_lt_zero i), rfl, List.prefix_rfl,
        .inl (not_lt.1 hcnt)⟩

/-! ## The order of the queue -/

/-- If the clock has not gone back, the idle connections are in order, and each has been refreshed
by one of the readings. -/
def Aged (s : Pool) : Prop :=
  Monotone s → Ordered s ∧ ∀ conn ∈ s.connectionQue, s.alivetime conn ∈ s.readings

namespace Aged

lemma empty : Aged Pool.empty :=
  fun _ => ⟨List.Pairwise.nil, fun _ hconn => absurd hconn List.not_mem_nil⟩

/-- What leaves the idle connections and the clock alone. -/
lemma of_eq (h : Aged s) (hque : s'.connectionQue = s.connectionQue)
    (halive : s'.alivetime = s.alivetime) (hreadings : s'.readings = s.readings) : Aged s' := by
  unfold Aged Monotone Ordered
  rw [hque, halive, hreadings]
  exact h

/-- Some of the idle connections, and more readings of the clock. -/
lemma of_sublist (h : Aged s) (hque : s'.connectionQue.Sublist s.connectionQue)
    (halive : s'.alivetime = s.alivetime) (hreadings : s.readings <+: s'.readings) : Aged s' := by
  intro hmonotone
  obtain ⟨hordered, hread⟩ := h (hmonotone.sublist hreadings.sublist)
  unfold Ordered
  rw [halive]
  exact ⟨hordered.sublist hque,
    fun conn hconn => hreadings.subset (hread conn (hque.subset hconn))⟩

/-- A connection that is not in the queue is refreshed and put into it. -/
lemma refresh_push (h : Aged s) {pcon : ℕ} (hnew : pcon ∉ s.connectionQue) (t : ℤ) :
    Aged ((s.refreshAlivetime pcon t).push pcon) := by
  intro hmonotone
  have hreadings : (s.readings ++ [t]).Pairwise (· ≤ ·) := hmonotone
  obtain ⟨hbefore, -, hlast⟩ := List.pairwise_append.1 hreadings
  obtain ⟨hordered, hread⟩ := h hbefore
  have hsame : ∀ conn ∈ s.connectionQue,
      Function.update s.alivetime pcon t conn = s.alivetime conn :=
    fun conn hconn => Function.update_of_ne (ne_of_mem_of_not_mem hconn hnew) _ _
  constructor
  · refine List.pairwise_append.2
      ⟨?_, List.pairwise_singleton _ _, fun conn hconn conn' hlast' => ?_⟩
    · refine hordered.imp_of_mem fun hconn hconn' hle => ?_
      show Function.update s.alivetime pcon t _ ≤ Function.update s.alivetime pcon t _
      rw [hsame _ hconn, hsame _ hconn']
      exact hle
    · show Function.update s.alivetime pcon t conn ≤ Function.update s.alivetime pcon t conn'
      rw [hsame conn hconn, List.mem_singleton.1 hlast', Function.update_self]
      exact hlast _ (hread conn hconn) t List.mem_cons_self
  · intro conn hconn
    show Function.update s.alivetime pcon t conn ∈ s.readings ++ [t]
    rcases List.mem_append.1 hconn with hold | hpcon
    · rw [hsame conn hold]
      exact List.mem_append_left _ (hread conn hold)
    · rw [List.mem_singleton.1 hpcon, Function.update_self]
      exact List.mem_append_right _ List.mem_cons_self

/-- A new connection has a number that is not in the queue. -/
lemma newConnection (h : Aged s) (honce : Once bound s) (connect : Option ℤ) :
    Aged (s.newConnection connect) := by
  cases connect with
  | none => exact h.of_eq rfl rfl rfl
  | some t =>
    have hnew : s.allocated ∉ s.connectionQue := by
      intro hmem
      have hless := honce.made _ (List.mem_append_left _ (List.mem_append_left _ hmem))
      exact lt_irrefl _ hless
    exact (h.refresh_push hnew t).of_eq rfl rfl rfl

lemma foldl_newConnection (connects : List (Option ℤ)) (h : Aged s) (honce : Once bound s) :
    Aged (connects.foldl Pool.newConnection s) := by
  induction connects generalizing s bound with
  | nil => exact h
  | cons connect connects ih =>
    have hcapped := honce.capped
    have hnext : Once (bound + 1) (s.newConnection connect) :=
      honce.newConnection (by omega) (by omega) connect
    exact ih (h.newConnection honce connect) hnext

lemma getconnection (h : Aged s) (thread : ℕ) (status : Option CvStatus) :
    Aged (s.getconnection thread status) := by
  rcases s.getconnection_cases thread status with ⟨conn, rest, hque, heq⟩ | ⟨-, heq⟩ | ⟨-, heq⟩ <;>
    rw [heq]
  · refine h.of_sublist ?_ rfl List.prefix_rfl
    rw [hque]
    exact List.sublist_cons_self conn rest
  · exact h.of_eq rfl rfl rfl
  · exact h.of_eq rfl rfl rfl

lemma step (h : Aged s) (honce : Once bound s) {op : Op} (hop : Possible s op)
    (hstep : step cfg s op = .returned s') : Aged s' := by
  cases op with
  | getconnection thread =>
    cases hstep
    exact h.getconnection thread _
  | wakeUp thread =>
    cases hstep
    exact h.of_eq rfl rfl rfl
  | resume thread status =>
    cases hstep
    exact h.getconnection thread _
  | release pcon t =>
    cases hstep
    have hnew : pcon ∉ s.connectionQue := fun hmem => honce.not_lent hmem hop
    exact (h.refresh_push hnew t).of_eq rfl rfl rfl
  | produce connect =>
    cases hstep
    rcases Pool.produceConnectionTask_cases cfg s connect with
      ⟨-, heq⟩ | ⟨-, -, heq⟩ | ⟨-, heq⟩ <;> rw [heq]
    · exact h.of_eq rfl rfl rfl
    · exact (h.newConnection honce connect).of_eq rfl rfl rfl
    · exact h.of_eq rfl rfl rfl
  | wakeProducer =>
    cases hstep
    exact h.of_eq rfl rfl rfl
  | scan readings =>
    obtain ⟨k, hk⟩ := exists_stopsBehind hstep
    refine h.of_sublist ?_ hk.alivetime hk.readings
    rw [hk.que]
    exact List.drop_sublist k _

/-- Whatever the steps are, as long as they are possible. -/
lemma of_run (connects : Fin cfg.initSize → Option ℤ) {ops : List Op}
    (hops : Outcome.Throughout (ConnectionPool.step cfg) Possible (Pool.init connects) ops)
    (hrun : Outcome.run (ConnectionPool.step cfg) (Pool.init connects) ops = .returned s) :
    Aged s := by
  have hinit : Aged (Pool.init connects) := empty.foldl_newConnection _ Once.empty
  have hboth := hops.preserves (fun s => Once (max cfg.initSize cfg.maxSize) s ∧ Aged s)
    (fun _ _ _ hs hop hstep =>
      ⟨hs.1.step (le_max_right _ _) hop hstep, hs.2.step hs.1 hop hstep⟩)
    ⟨Once.init_max cfg connects, hinit⟩ hrun
  exact hboth.2

end Aged

/-- The scan has deleted the first idle connections, all of them expired when it looked at them, and
either the pool counts no more than `_init_size` connections now or no idle connection is expired by
the last reading of the clock. -/
structure StopsSoundly (cfg : Config) (s : Pool) (ts : List ℤ) (s' : Pool) : Prop where
  deletes : ∃ k, s'.connectionQue = s.connectionQue.drop k ∧
    s'.deleted = (s.connectionQue.take k).reverse ++ s.deleted ∧
    ∀ i < k, ∃ conn t, s.connectionQue[i]? = some conn ∧ ts[i]? = some t ∧ Expired cfg s conn t
  stops : s'.connectionCnt ≤ cfg.initSize ∨ ∃ t, s'.readings.getLast? = some t ∧
    ∀ conn ∈ s'.connectionQue, ¬ Expired cfg s' conn t

/-- If the first idle connection is not expired, none is. -/
lemma Ordered.not_expired (h : Ordered s) {p : ℕ} {t : ℤ} (hhead : s.connectionQue.head? = some p)
    (hp : ¬ Expired cfg s p t) : ∀ conn ∈ s.connectionQue, ¬ Expired cfg s conn t := by
  obtain ⟨rest, hque⟩ := List.head?_eq_some_iff.1 hhead
  unfold Ordered at h
  rw [hque] at h ⊢
  intro conn hconn
  rcases List.mem_cons.1 hconn with rfl | hrest
  · exact hp
  · have hle := (List.pairwise_cons.1 h).1 conn hrest
    unfold Expired at hp ⊢
    omega

/-- As long as the clock does not go back, the idle connections are in the order of `_alivetime`
after every run, and a scan that stops is not wrong to do so. -/
theorem scan_sound (connects : Fin cfg.initSize → Option ℤ) {ops : List Op}
    (hops : Outcome.Throughout (step cfg) Possible (Pool.init connects) ops)
    (hrun : Outcome.run (step cfg) (Pool.init connects) ops = .returned s)
    (hmonotone : Monotone s) :
    Ordered s ∧ ∀ ts s', s.scanConnectionTask cfg ts = .returned s' → StopsSoundly cfg s ts s' := by
  obtain ⟨hordered, -⟩ := Aged.of_run connects hops hrun hmonotone
  refine ⟨hordered, fun ts s' hscan => ?_⟩
  obtain ⟨k, hk⟩ := exists_stopsBehind hscan
  have hordered' : Ordered s' := by
    unfold Ordered
    rw [hk.que, hk.alivetime]
    exact hordered.sublist (List.drop_sublist k _)
  refine ⟨⟨k, hk.que, hk.deleted, hk.expired⟩, hk.stops.imp_right ?_⟩
  rintro ⟨p, t, hhead, hlast, hp⟩
  exact ⟨t, hlast, hordered'.not_expired hhead hp⟩

/-- Of two idle connections the scan deletes the older one and stops at the other. -/
theorem scan_sound_putBack : ∃ s s' : Pool,
    s.scanConnectionTask small [60003, 60004] = .returned s' ∧ s'.deleted = [2] ∧
      s'.connectionQue = [0] ∧ Ordered s ∧ StopsSoundly small s [60003, 60004] s' := by
  have hrun : Outcome.run (step small) oneIdle putBack = .returned _ := rfl
  obtain ⟨hordered, hstops⟩ := scan_sound (fun _ : Fin small.initSize => some 0) putBack_possible hrun
    (show [(0 : ℤ), 1, 2, 5].Pairwise (· ≤ ·) by decide)
  exact ⟨_, _, rfl, rfl, rfl, hordered, hstops _ _ rfl⟩

end ConnectionPool
