import CPYuZe.ConnectionPool.Accounting

/-!
# The scan for idle connections

`scan_connection_task` deletes connections from the front of the queue while the pool counts more
than `_init_size` of them and the first one has been idle for too long.  The count is of the lent
ones as well, so the loop can come to an empty queue and ask it for its front: that is so exactly if
all idle connections go and more than `_init_size` are lent (`scansIdle_iff`).
-/

namespace ConnectionPool

variable {cfg : Config} {s s' : Pool} {bound : ℤ}

/-- The connection has been idle for longer than the scan allows when the clock says `t`. -/
def Expired (cfg : Config) (s : Pool) (conn : ℕ) (t : ℤ) : Prop :=
  t - s.alivetime conn > 1000 * cfg.maxIdleTime

namespace Pool

/-- The pool when the first idle connection has been deleted. -/
def deleteFirst (s : Pool) (p : ℕ) (rest : List ℕ) (t : ℤ) : Pool :=
  { s with
    connectionQue := rest
    connectionCnt := s.connectionCnt - 1
    deleted := p :: s.deleted
    readings := s.readings ++ [t] }

/-- The pool when the scan has read the clock. -/
def readClock (s : Pool) (t : ℤ) : Pool := { s with readings := s.readings ++ [t] }

variable {p : ℕ} {rest : List ℕ} {t : ℤ}

lemma scanTurn_of_le (h : s.connectionCnt ≤ cfg.initSize) (t : ℤ) :
    s.scanTurn cfg t = .returned (.done s) :=
  if_neg (not_lt.2 h)

lemma scanTurn_empty (h : cfg.initSize < s.connectionCnt) (hque : s.connectionQue = []) (t : ℤ) :
    s.scanTurn cfg t = .faulted .frontOfEmpty := by
  rw [scanTurn, if_pos h, hque]

lemma scanTurn_expired (h : cfg.initSize < s.connectionCnt) (hque : s.connectionQue = p :: rest)
    (hexpired : Expired cfg s p t) :
    s.scanTurn cfg t = .returned (.next (s.deleteFirst p rest t)) := by
  rw [scanTurn, if_pos h, hque]
  exact if_pos hexpired

lemma scanTurn_fresh (h : cfg.initSize < s.connectionCnt) (hque : s.connectionQue = p :: rest)
    (hfresh : ¬ Expired cfg s p t) : s.scanTurn cfg t = .returned (.done (s.readClock t)) := by
  rw [scanTurn, if_pos h]
  split
  · next hnil => exact absurd (hque.symm.trans hnil) (List.cons_ne_nil p rest)
  · next p' rest' hcons =>
    obtain ⟨rfl, -⟩ := List.cons_eq_cons.1 (hque.symm.trans hcons)
    exact if_neg hfresh

end Pool

/-! ## What the scan looks at -/

/-- Every round that evaluates `front()` and `pop()` does so on a queue that is not empty, and what
it deletes is not lent out. -/
def LooksAtIdle (cfg : Config) : Pool → List ℤ → Prop
  | _, [] => True
  | s, t :: ts =>
    (s.connectionCnt > cfg.initSize → s.connectionQue ≠ []) ∧
      ∀ s', s.scanTurn cfg t = .returned (.next s') →
        (∀ conn ∈ s'.deleted, conn ∈ s.deleted ∨ conn ∉ s.lent) ∧ LooksAtIdle cfg s' ts

/-- If the step is a scan, it looks at idle connections only. -/
def ScansIdle (cfg : Config) (s : Pool) : Op → Prop
  | .scan readings => LooksAtIdle cfg s readings
  | .getconnection _ | .wakeUp _ | .resume _ _ | .release _ _ | .produce _ | .wakeProducer => True

/-- Every idle connection is expired when its turn comes, and there is a round behind them. -/
def AllExpired (cfg : Config) (s : Pool) (readings : List ℤ) : Prop :=
  s.connectionQue.length < readings.length ∧
    ∀ x ∈ s.connectionQue.zip readings, Expired cfg s x.1 x.2

/-- If the step is a scan for which all idle connections are expired, at most `_init_size`
connections are lent out. -/
def FewLent (cfg : Config) (s : Pool) : Op → Prop
  | .scan readings => AllExpired cfg s readings → s.lent.length ≤ cfg.initSize
  | .getconnection _ | .wakeUp _ | .resume _ _ | .release _ _ | .produce _ | .wakeProducer => True

lemma Once.not_lent (h : Once bound s) {conn : ℕ} (hconn : conn ∈ s.connectionQue) :
    conn ∉ s.lent := by
  obtain ⟨hused, -, -⟩ := List.nodup_append'.1 h.once
  obtain ⟨-, -, hdisjoint⟩ := List.nodup_append'.1 hused
  exact fun hlent => hdisjoint hconn hlent

/-- The first connection has gone. -/
lemma allExpired_cons {p : ℕ} {rest : List ℕ} {t : ℤ} {ts : List ℤ}
    (hque : s.connectionQue = p :: rest) (hexpired : Expired cfg s p t) :
    AllExpired cfg s (t :: ts) ↔ AllExpired cfg (s.deleteFirst p rest t) ts := by
  rw [AllExpired, hque, List.length_cons, List.length_cons, Nat.succ_lt_succ_iff,
    List.zip_cons_cons]
  refine and_congr_right fun _ => ⟨fun hall x hx => hall x (List.mem_cons_of_mem _ hx), ?_⟩
  intro hall x hx
  rcases List.mem_cons.1 hx with rfl | hrest
  · exact hexpired
  · exact hall x hrest

lemma looksAtIdle_iff (ts : List ℤ) (h : Once bound s) :
    LooksAtIdle cfg s ts ↔ (AllExpired cfg s ts → s.lent.length ≤ cfg.initSize) := by
  induction ts generalizing s with
  | nil => exact ⟨fun _ hall => absurd hall.1 (Nat.not_lt_zero _), fun _ => trivial⟩
  | cons t ts ih =>
    have hcounted := h.counted
    by_cases hcnt : cfg.initSize < s.connectionCnt
    · cases hque : s.connectionQue with
      | nil =>
        have hmany : ¬ s.lent.length ≤ cfg.initSize := by
          rw [hque, List.length_nil] at hcounted
          omega
        have hall : AllExpired cfg s (t :: ts) := by
          rw [AllExpired, hque]
          exact ⟨Nat.succ_pos _, fun x hx => absurd hx List.not_mem_nil⟩
        exact ⟨fun hlooks => absurd hque (hlooks.1 hcnt), fun hfew => absurd (hfew hall) hmany⟩
      | cons p rest =>
        have hne : s.connectionQue ≠ [] := by
          rw [hque]
          exact List.cons_ne_nil p rest
        by_cases hexpired : Expired cfg s p t
        · have hturn := Pool.scanTurn_expired hcnt hque hexpired
          have hdelete : Once bound (s.deleteFirst p rest t) := h.delete hque _
          rw [allExpired_cons hque hexpired]
          refine Iff.trans ⟨fun hlooks => (hlooks.2 _ hturn).2, fun hlooks => ⟨fun _ => hne, ?_⟩⟩
            (ih hdelete)
          intro s' hs'
          obtain rfl : s.deleteFirst p rest t = s' := by simpa [hturn] using hs'
          refine ⟨fun conn hconn => (List.mem_cons.1 hconn).symm.imp_right ?_, hlooks⟩
          rintro rfl
          exact h.not_lent (hque ▸ List.mem_cons_self)
        · have hturn := Pool.scanTurn_fresh hcnt hque hexpired
          refine ⟨fun _ hall => absurd (hall.2 (p, t) ?_) hexpired, fun _ => ⟨fun _ => hne, ?_⟩⟩
          · rw [hque, List.zip_cons_cons]
            exact List.mem_cons_self
          · intro s' hs'
            exact absurd hs' (by simp [hturn])
    · have hturn := Pool.scanTurn_of_le (not_lt.1 hcnt) t
      refine ⟨fun _ _ => by omega, fun _ => ⟨fun hgt => absurd hgt hcnt, fun s' hs' => ?_⟩⟩
      exact absurd hs' (by simp [hturn])

lemma scansIdle_iff_fewLent (h : Once bound s) (op : Op) :
    ScansIdle cfg s op ↔ FewLent cfg s op := by
  cases op with
  | scan readings => exact looksAtIdle_iff readings h
  | _ => exact Iff.rfl

/-- What the constructor leaves, with room for as many connections as there can be. -/
lemma Once.init_max (cfg : Config) (connects : Fin cfg.initSize → Option ℤ) :
    Once (max cfg.initSize cfg.maxSize) (Pool.init connects) := by
  have h := Once.init connects
  exact ⟨h.once, h.made, h.counted, h.capped.trans (le_max_left _ _)⟩

/-- In every run the scans ask only queues that are not empty for their front, and delete nothing
that is lent out, exactly if no scan finds all idle connections expired while more than
`_init_size` are lent out. -/
theorem scansIdle_iff (connects : Fin cfg.initSize → Option ℤ) {ops : List Op}
    (hops : Outcome.Throughout (step cfg) Possible (Pool.init connects) ops) :
    Outcome.Throughout (step cfg) (ScansIdle cfg) (Pool.init connects) ops ↔
      Outcome.Throughout (step cfg) (FewLent cfg) (Pool.init connects) ops := by
  have hinit := Once.init_max cfg connects
  exact hops.iff (fun _ op hs _ => scansIdle_iff_fewLent hs op)
    (fun _ _ _ hs hop _ hstep => hs.step (le_max_right _ _) hop hstep) hinit

/-- The ten connections of the constructor could all be made. -/
def tenIdle : Pool := Pool.init fun _ : Fin 10 => some 0

/-- Ten threads take a connection each, another one is made, and it is taken as well. -/
def takeEleven : List Op :=
  [.getconnection 0, .getconnection 1, .getconnection 2, .getconnection 3, .getconnection 4,
    .getconnection 5, .getconnection 6, .getconnection 7, .getconnection 8, .getconnection 9,
    .produce (some 0), .getconnection 10]

/-- Eleven connections are lent out, and the scan counts eleven and finds none. -/
theorem not_scansIdle_takeEleven :
    Outcome.Throughout (step {}) Possible tenIdle (takeEleven ++ [.scan [0]]) ∧
    ¬ Outcome.Throughout (step {}) (ScansIdle {}) tenIdle (takeEleven ++ [.scan [0]]) := by
  constructor
  · iterate 12 refine (Outcome.throughout_cons_returned rfl _).2 ⟨rfl, ?_⟩
    refine ⟨trivial, fun _ _ => trivial⟩
  · intro hscans
    have hrun : Outcome.run (step {}) tenIdle takeEleven = .returned _ := rfl
    have hlooks := hscans.last hrun
    exact hlooks.1 (by decide) rfl

/-- One connection is to be kept, and four are the most there can be. -/
def small : Config := ⟨1, 4, 60⟩

/-- Two connections are lent out and others made for them, and the first one is put back behind
the last one. -/
def putBack : List Op :=
  [.getconnection 3, .produce (some 1), .getconnection 4, .produce (some 2), .release 0 5]

def oneIdle : Pool := Pool.init fun _ : Fin small.initSize => some 0

lemma putBack_possible : Outcome.Throughout (step small) Possible oneIdle putBack := by
  refine (Outcome.throughout_cons_returned rfl _).2 ⟨rfl, ?_⟩
  refine (Outcome.throughout_cons_returned rfl _).2 ⟨rfl, ?_⟩
  refine (Outcome.throughout_cons_returned rfl _).2 ⟨rfl, ?_⟩
  refine (Outcome.throughout_cons_returned rfl _).2 ⟨rfl, ?_⟩
  have hlent : (0 : ℕ) ∈ [1, 0] := by decide
  exact (Outcome.throughout_cons_returned rfl _).2 ⟨hlent, trivial⟩

/-- The scan deletes the idle connection that has expired and stops at the one that has not. -/
theorem scansIdle_iff_putBack :
    Outcome.Throughout (step small) (ScansIdle small) oneIdle
      (putBack ++ [.scan [60003, 60004]]) := by
  have hops : Outcome.Throughout (step small) Possible oneIdle
      (putBack ++ [.scan [60003, 60004]]) :=
    Outcome.throughout_append.2 ⟨putBack_possible, fun _ _ => ⟨trivial, fun _ _ => trivial⟩⟩
  refine (scansIdle_iff (fun _ : Fin small.initSize => some 0) hops).2 ?_
  refine Outcome.throughout_append.2 ⟨?_, fun s hrun => ⟨fun _ => ?_, fun _ _ => trivial⟩⟩
  · iterate 5 refine (Outcome.throughout_cons_returned rfl _).2 ⟨trivial, ?_⟩
    exact trivial
  · cases hrun
    decide

end ConnectionPool
