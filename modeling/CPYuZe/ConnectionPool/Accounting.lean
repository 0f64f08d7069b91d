import CPYuZe.ConnectionPool.Pool

/-!
# Where the connections are

Between two steps every connection that has been made is in one place: it is idle, or lent out, or
deleted, and it is there once.  `Once` says so, and that the counter of the pool counts those that
are idle or lent.  A connection goes from one place to another when it is taken, put back or
deleted (`Once.of_perm`), and a new one comes in when there is room (`Once.newConnection`);
`accounted` follows for every run whose scans have not asked an empty queue for its front.
-/

namespace ConnectionPool

variable {cfg : Config} {s s' : Pool} {bound : ℤ}

namespace Pool

/-- The connections that have been made, by where they are. -/
def places (s : Pool) : List ℕ := s.connectionQue ++ s.lent ++ s.deleted

end Pool

structure Once (bound : ℤ) (s : Pool) : Prop where
  once : s.places.Nodup
  made : ∀ conn ∈ s.places, conn < s.allocated
  counted : s.connectionCnt = s.connectionQue.length + s.lent.length
  capped : s.connectionCnt ≤ bound

namespace Once

lemma empty : Once 0 Pool.empty where
  once := List.nodup_nil
  made _ h := absurd h List.not_mem_nil
  counted := rfl
  capped := le_rfl

/-- Connections that change their places. -/
lemma of_perm (h : Once bound s) (hplaces : s'.places.Perm s.places)
    (hallocated : s'.allocated = s.allocated)
    (hcounted : s'.connectionCnt = s'.connectionQue.length + s'.lent.length)
    (hcapped : s'.connectionCnt ≤ s.connectionCnt) : Once bound s' where
  once := hplaces.nodup_iff.2 h.once
  made conn hconn := by
    rw [hallocated]
    exact h.made conn (hplaces.mem_iff.1 hconn)
  counted := hcounted
  capped := hcapped.trans h.capped

/-- What leaves the connections and the counter alone. -/
lemma of_eq (h : Once bound s) (hplaces : s'.places = s.places)
    (hallocated : s'.allocated = s.allocated) (hcnt : s'.connectionCnt = s.connectionCnt)
    (hque : s'.connectionQue = s.connectionQue) (hlent : s'.lent = s.lent) : Once bound s' := by
  refine h.of_perm (List.Perm.of_eq hplaces) hallocated ?_ hcnt.le
  rw [hcnt, hque, hlent]
  exact h.counted

lemma notifyAll (h : Once bound s) : Once bound s.notifyAll := h.of_eq rfl rfl rfl rfl rfl

lemma setConsumer (h : Once bound s) (thread : ℕ) (pc : ConsumerPc) :
    Once bound (s.setConsumer thread pc) :=
  h.of_eq rfl rfl rfl rfl rfl

/-- There is room for a new connection; if its `connect` fails, it has a number and no place. -/
lemma newConnection {bound' : ℤ} (h : Once bound s) (hbound : bound ≤ bound')
    (hroom : s.connectionCnt < bound') (connect : Option ℤ) :
    Once bound' (s.newConnection connect) := by
  cases connect with
  | none =>
    refine ⟨h.once, fun conn hconn => ?_, h.counted, h.capped.trans hbound⟩
    exact (h.made conn hconn).trans (Nat.lt_succ_self _)
  | some t =>
    have hplaces : ((s.newConnection (some t)).places).Perm (s.allocated :: s.places) := by
      show (s.connectionQue ++ [s.allocated] ++ s.lent ++ s.deleted).Perm _
      rw [List.append_assoc, List.append_assoc, List.singleton_append]
      refine List.perm_middle.trans ?_
      rw [Pool.places, List.append_assoc]
    refine ⟨hplaces.nodup_iff.2 ?_, fun conn hconn => ?_, ?_, ?_⟩
    · exact List.nodup_cons.2 ⟨fun hmem => lt_irrefl _ (h.made _ hmem), h.once⟩
    · show conn < s.allocated + 1
      rcases List.mem_cons.1 (hplaces.mem_iff.1 hconn) with rfl | hold
      · exact Nat.lt_succ_self _
      · exact (h.made conn hold).trans (Nat.lt_succ_self _)
    · show s.connectionCnt + 1 = ((s.connectionQue ++ [s.allocated]).length : ℤ) + s.lent.length
      rw [h.counted, List.length_append, List.length_singleton]
      push_cast
      ring
    · show s.connectionCnt + 1 ≤ bound'
      omega

/-- The constructor makes at most as many connections as it tries to. -/
lemma foldl_newConnection (connects : List (Option ℤ)) (h : Once bound s) :
    Once (bound + connects.length) (connects.foldl Pool.newConnection s) := by
  induction connects generalizing s bound with
  | nil => simpa using h
  | cons connect connects ih =>
    have hcapped := h.capped
    have hnew : Once (bound + 1) (s.newConnection connect) :=
      h.newConnection (by omega) (by omega) connect
    have hnext := ih hnew
    rw [List.length_cons]
    push_cast
    rw [add_comm (connects.length : ℤ), ← add_assoc]
    exact hnext

lemma init {initSize : ℕ} (connects : Fin initSize → Option ℤ) :
    Once initSize (Pool.init connects) := by
  have h := foldl_newConnection (List.ofFn connects) empty
  rw [List.length_ofFn, zero_add] at h
  exact h

lemma getconnection (h : Once bound s) (thread : ℕ) (status : Option CvStatus) :
    Once bound (s.getconnection thread status) := by
  rcases s.getconnection_cases thread status with ⟨conn, rest, hque, heq⟩ | ⟨-, heq⟩ | ⟨-, heq⟩ <;>
    rw [heq]
  · refine notifyAll (h.of_perm ?_ rfl ?_ le_rfl)
    · show (rest ++ conn :: s.lent ++ s.deleted).Perm _
      rw [Pool.places, hque]
      exact List.perm_middle.append_right s.deleted
    · have hcounted := h.counted
      rw [hque] at hcounted
      show s.connectionCnt = (rest.length : ℤ) + (conn :: s.lent).length
      rw [hcounted, List.length_cons, List.length_cons]
      push_cast
      ring
  · exact h.setConsumer thread _
  · exact h.setConsumer thread _

lemma deleter (h : Once bound s) {pcon : ℕ} (hlent : pcon ∈ s.lent) (t : ℤ) :
    Once bound (s.deleter pcon t) := by
  refine h.of_perm ?_ rfl ?_ le_rfl
  · show (s.connectionQue ++ [pcon] ++ s.lent.erase pcon ++ s.deleted).Perm _
    rw [Pool.places, List.append_assoc s.connectionQue, List.singleton_append]
    exact ((List.perm_cons_erase hlent).symm.append_left s.connectionQue).append_right s.deleted
  · show s.connectionCnt = ((s.connectionQue ++ [pcon]).length : ℤ) + (s.lent.erase pcon).length
    have hlength := List.length_erase_add_one hlent
    rw [h.counted, List.length_append, List.length_singleton]
    omega

lemma produceConnectionTask (h : Once bound s) (hmax : cfg.maxSize ≤ bound)
    (connect : Option ℤ) : Once bound (s.produceConnectionTask cfg connect) := by
  rcases Pool.produceConnectionTask_cases cfg s connect with
    ⟨-, heq⟩ | ⟨-, hroom, heq⟩ | ⟨-, heq⟩ <;> rw [heq]
  · exact h.of_eq rfl rfl rfl rfl rfl
  · exact (h.newConnection le_rfl (hroom.trans_le hmax) connect).notifyAll
  · exact h.notifyAll

/-- The scan deletes the first idle connection. -/
lemma delete (h : Once bound s) {p : ℕ} {rest : List ℕ} (hque : s.connectionQue = p :: rest)
    (readings : List ℤ) :
    Once bound { s with
      connectionQue := rest
      connectionCnt := s.connectionCnt - 1
      deleted := p :: s.deleted
      readings := readings } := by
  refine h.of_perm ?_ rfl ?_ (Int.sub_le_self _ (by decide))
  · show (rest ++ s.lent ++ p :: s.deleted).Perm _
    rw [Pool.places, hque]
    exact List.perm_middle
  · have hcounted := h.counted
    rw [hque, List.length_cons] at hcounted
    show s.connectionCnt - 1 = (rest.length : ℤ) + s.lent.length
    omega

lemma step (h : Once bound s) (hmax : cfg.maxSize ≤ bound) {op : Op} (hop : Possible s op)
    (hstep : step cfg s op = .returned s') : Once bound s' := by
  cases op with
  | getconnection thread =>
    cases hstep
    exact h.getconnection thread _
  | wakeUp thread =>
    cases hstep
    exact h.setConsumer thread _
  | resume thread status =>
    cases hstep
    exact h.getconnection thread _
  | release pcon t =>
    cases hstep
    exact h.deleter hop t
  | produce connect =>
    cases hstep
    exact h.produceConnectionTask hmax connect
  | wakeProducer =>
    cases hstep
    exact h.of_eq rfl rfl rfl rfl rfl
  | scan readings =>
    exact Pool.scanConnectionTask_preserves (Once bound)
      (fun _ _ hs => hs.of_eq rfl rfl rfl rfl rfl) (fun _ _ _ _ hs hque => hs.delete hque _) h hstep

end Once

/-- Nothing is idle twice, lent twice, idle and lent, or deleted and still in use, and the counter
is the number of the connections that are idle or lent. -/
structure Accounted (cfg : Config) (s : Pool) : Prop where
  idle : s.connectionQue.Nodup
  lent : s.lent.Nodup
  disjoint : s.connectionQue.Disjoint s.lent
  deleted : ∀ conn ∈ s.deleted, conn ∉ s.connectionQue ∧ conn ∉ s.lent
  counted : s.connectionCnt = s.connectionQue.length + s.lent.length
  capped : s.connectionCnt ≤ cfg.maxSize

lemma accounted_of_once (h : Once cfg.maxSize s) : Accounted cfg s := by
  obtain ⟨hused, hdeleted, hgone⟩ := List.nodup_append'.1 h.once
  obtain ⟨hidle, hlent, hdisjoint⟩ := List.nodup_append'.1 hused
  refine ⟨hidle, hlent, hdisjoint, fun conn hconn => ?_, h.counted, h.capped⟩
  exact ⟨fun hque => hgone (List.mem_append_left _ hque) hconn,
    fun hmem => hgone (List.mem_append_right _ hmem) hconn⟩

/-- A pool keeps account of its connections in every run without `front()` on an empty queue. -/
theorem accounted (hsize : cfg.initSize ≤ cfg.maxSize) (connects : Fin cfg.initSize → Option ℤ)
    {ops : List Op} (hops : Outcome.Throughout (step cfg) Possible (Pool.init connects) ops)
    (hrun : Outcome.run (step cfg) (Pool.init connects) ops = .returned s) :
    Accounted cfg s := by
  have hinit : Once cfg.maxSize (Pool.init connects) := by
    have h := Once.init connects
    exact ⟨h.once, h.made, h.counted, h.capped.trans (by exact_mod_cast hsize)⟩
  exact accounted_of_once (hops.preserves (Once cfg.maxSize)
    (fun _ _ _ hs hop hstep => hs.step le_rfl hop hstep) hinit hrun)

/-- One connection is lent out, one is made meanwhile, and the scan deletes it after the return of
the first. -/
theorem accounted_scan : ∃ s : Pool, s.deleted = [1] ∧ s.connectionQue = [0] ∧
    Accounted ⟨1, 2, 60⟩ s := by
  refine ⟨_, ?_, ?_, @accounted ⟨1, 2, 60⟩ _ (by decide) (fun _ => some 0)
    [.getconnection 3, .produce (some 1), .release 0 5, .scan [70000, 70000]] ?_ rfl⟩
  · rfl
  · rfl
  · refine (Outcome.throughout_cons_returned rfl _).2 ⟨rfl, ?_⟩
    refine (Outcome.throughout_cons_returned rfl _).2 ⟨rfl, ?_⟩
    refine (Outcome.throughout_cons_returned rfl _).2 ⟨List.mem_cons_self, ?_⟩
    exact (Outcome.throughout_cons_returned rfl _).2 ⟨trivial, trivial⟩

end ConnectionPool
