import CPYuZe.Library.Outcome

/-!
# The timed mutex

`T_Mutex` has a queue and a `timed_mutex` for it.  `Comsumpe` tries to lock the mutex for a time,
and tries again if it does not get it.  `Produce` tries as well, but it does not look at the result:
with the lock or without it the producer adds its element, sleeps and unlocks.

A thread runs one of the two functions, and any number of them share one `T_Mutex`.  A step is one
statement of one thread: the end of an attempt, with the lock or at the timeout, the access to the
queue, and the call of `unlock`.  An attempt gets the lock only if nobody has it, and times out only
if somebody else has it (`Possible`); how long a thread sleeps does not matter, since every timeout
is possible.  What the threads write to `cout` is left out.

The threads keep each other out, and unlock what they have locked, exactly if no attempt of a
producer times out (`excludes_iff`).  The timeouts of consumers do no harm.
-/

namespace TimedMutex

/-- The function a thread runs; `i` is the variable of the loop in `Produce`. -/
inductive Code (S : Type*)
  | comsumpe
  | produce (s : S) (i : ℕ)

/-- Where a thread is. -/
inductive Pc (S : Type*)
  /-- In `try_lock_for`. -/
  | attempting (code : Code S)
  /-- The queue comes next. -/
  | accessing (code : Code S)
  /-- In `sleep_for`, and `unlock` comes next. -/
  | sleeping (code : Code S)
  /-- `Produce` has returned. -/
  | returned

/-- Between the attempt and `unlock`. -/
def Pc.InSection {S : Type*} : Pc S → Prop
  | .accessing _ | .sleeping _ => True
  | .attempting _ | .returned => False

/-- The function of a thread that has not returned. -/
def Pc.code {S : Type*} : Pc S → Option (Code S)
  | .attempting code | .accessing code | .sleeping code => some code
  | .returned => none

inductive MutexFault
  /-- `unlock` is called by a thread that does not have the lock. -/
  | notOwner
  deriving DecidableEq, Repr

structure TMutex (ι S : Type*) where
  members : List S
  /-- The thread that has `_tmx`. -/
  holder : Option ι
  pc : ι → Pc S

inductive Op (ι : Type*)
  /-- `try_lock_for` returns `true`. -/
  | lock (thread : ι)
  /-- `try_lock_for` returns `false`. -/
  | timeOut (thread : ι)
  | access (thread : ι)
  | unlock (thread : ι)

/-- Where a thread goes from the end of the body of its loop. -/
def nextTurn {S : Type*} : Code S → Pc S
  | .comsumpe => .attempting .comsumpe
  | .produce s i => if i + 1 < 10 then .attempting (.produce s (i + 1)) else .returned

/-- What becomes of `_members`. -/
def access {S : Type*} (members : List S) : Code S → List S
  | .comsumpe => members.tail
  | .produce s _ => members ++ [s]

namespace TMutex

variable {ι S : Type*} [DecidableEq ι]

/-- The queue is empty, and every thread is before its first attempt. -/
def init (code : ι → Code S) : TMutex ι S := ⟨[], none, fun t => .attempting (code t)⟩

def setPc (m : TMutex ι S) (t : ι) (pc : Pc S) : TMutex ι S :=
  { m with pc := Function.update m.pc t pc }

def step (m : TMutex ι S) : Op ι → Outcome MutexFault (TMutex ι S)
  | .lock t =>
    match m.pc t with
    | .attempting code => .returned { m.setPc t (.accessing code) with holder := some t }
    | _ => .returned m
  | .timeOut t =>
    match m.pc t with
    -- the producer goes on as if it had the lock
    | .attempting (.produce s i) => .returned (m.setPc t (.accessing (.produce s i)))
    | _ => .returned m
  | .access t =>
    match m.pc t with
    | .accessing code =>
      .returned { m.setPc t (.sleeping code) with members := access m.members code }
    | _ => .returned m
  | .unlock t =>
    match m.pc t with
    | .sleeping code =>
      if m.holder = some t then .returned { m.setPc t (nextTurn code) with holder := none }
      else .faulted .notOwner
    | _ => .returned m

/-- Whose turn it can be. -/
def Possible (m : TMutex ι S) : Op ι → Prop
  | .lock t => (∃ code, m.pc t = .attempting code) ∧ m.holder = none
  | .timeOut t => (∃ code, m.pc t = .attempting code) ∧ ∃ t', t' ≠ t ∧ m.holder = some t'
  | .access t => ∃ code, m.pc t = .accessing code
  | .unlock t => ∃ code, m.pc t = .sleeping code

/-- One thread at most is between its attempt and its `unlock`. -/
def Exclusive (m : TMutex ι S) : Prop :=
  ∀ t t', (m.pc t).InSection → (m.pc t').InSection → t = t'

/-- The step lets no second thread to the queue, and the lock is given back by the thread that has
it. -/
structure Excludes (m : TMutex ι S) (op : Op ι) : Prop where
  owner : ∀ t, op = .unlock t → m.holder = some t
  exclusive : ∀ m', m.step op = .returned m' → m'.Exclusive

/-- It is not the attempt of a producer that times out. -/
def ProducersWait (m : TMutex ι S) (op : Op ι) : Prop :=
  ∀ t s i, op = .timeOut t → m.pc t ≠ .attempting (.produce s i)

/-- The thread that is between its attempt and its `unlock` is the one that has the lock. -/
def Owned (m : TMutex ι S) : Prop := ∀ t, (m.pc t).InSection ↔ m.holder = some t

/-! ## One step -/

section Steps

variable {m m' : TMutex ι S} {t t' : ι} {pc : Pc S} {op : Op ι}

@[simp] lemma setPc_self (m : TMutex ι S) (t : ι) (pc : Pc S) : (m.setPc t pc).pc t = pc :=
  Function.update_self _ _ _

lemma setPc_of_ne (m : TMutex ι S) (h : t' ≠ t) (pc : Pc S) : (m.setPc t pc).pc t' = m.pc t' :=
  Function.update_of_ne h _ _

/-- What a step can do. -/
lemma step_cases (hpossible : m.Possible op) (hstep : m.step op = .returned m') :
    (∃ t code, op = .lock t ∧ m.pc t = .attempting code ∧ m.holder = none ∧
      m' = { m.setPc t (.accessing code) with holder := some t }) ∨
    (∃ t, op = .timeOut t ∧ m.pc t = .attempting .comsumpe ∧ m' = m) ∨
    (∃ t s i, op = .timeOut t ∧ m.pc t = .attempting (.produce s i) ∧
      m' = m.setPc t (.accessing (.produce s i))) ∨
    (∃ t code, op = .access t ∧ m.pc t = .accessing code ∧
      m' = { m.setPc t (.sleeping code) with members := access m.members code }) ∨
    (∃ t code, op = .unlock t ∧ m.pc t = .sleeping code ∧ m.holder = some t ∧
      m' = { m.setPc t (nextTurn code) with holder := none }) := by
  cases op with
  | lock t =>
    obtain ⟨⟨code, hpc⟩, hfree⟩ := hpossible
    rw [step, hpc] at hstep
    exact .inl ⟨t, code, rfl, hpc, hfree, (Outcome.returned.inj hstep).symm⟩
  | timeOut t =>
    obtain ⟨⟨code, hpc⟩, -⟩ := hpossible
    rw [step, hpc] at hstep
    cases code with
    | comsumpe => exact .inr (.inl ⟨t, rfl, hpc, (Outcome.returned.inj hstep).symm⟩)
    | produce s i =>
      exact .inr (.inr (.inl ⟨t, s, i, rfl, hpc, (Outcome.returned.inj hstep).symm⟩))
  | access t =>
    obtain ⟨code, hpc⟩ := hpossible
    rw [step, hpc] at hstep
    exact .inr (.inr (.inr (.inl ⟨t, code, rfl, hpc, (Outcome.returned.inj hstep).symm⟩)))
  | unlock t =>
    obtain ⟨code, hpc⟩ := hpossible
    rw [step, hpc] at hstep
    by_cases hholder : m.holder = some t
    · simp only [hholder, if_true] at hstep
      exact .inr (.inr (.inr (.inr
        ⟨t, code, rfl, hpc, hholder, (Outcome.returned.inj hstep).symm⟩)))
    · simp only [hholder, if_false] at hstep
      cases hstep

lemma not_inSection_nextTurn (code : Code S) : ¬ (nextTurn code).InSection := by
  cases code with
  | comsumpe => exact id
  | produce s i =>
    show ¬ (if i + 1 < 10 then Pc.attempting (.produce s (i + 1)) else .returned).InSection
    split_ifs
    · exact id
    · exact id

namespace Owned

omit [DecidableEq ι] in
lemma init (code : ι → Code S) : (init code).Owned := by
  intro t
  exact iff_of_false id (by simp [TMutex.init])

omit [DecidableEq ι] in
lemma exclusive (h : m.Owned) : m.Exclusive := by
  intro t t' ht ht'
  have hsame := ((h t).1 ht).symm.trans ((h t').1 ht')
  exact Option.some.inj hsame

/-- A thread gets the lock. -/
lemma lock (h : m.Owned) (hfree : m.holder = none) (hpc : pc.InSection) :
    Owned { m.setPc t pc with holder := some t } := by
  intro t'
  show ((m.setPc t pc).pc t').InSection ↔ some t = some t'
  by_cases ht : t' = t
  · subst ht
    rw [setPc_self]
    exact iff_of_true hpc rfl
  · rw [setPc_of_ne m ht, h t', hfree]
    exact iff_of_false (by simp) fun heq => ht (Option.some.inj heq).symm

/-- The thread that has the lock gives it back. -/
lemma unlock (h : m.Owned) (hholder : m.holder = some t) (hpc : ¬ pc.InSection) :
    Owned { m.setPc t pc with holder := none } := by
  intro t'
  show ((m.setPc t pc).pc t').InSection ↔ none = some t'
  by_cases ht : t' = t
  · subst ht
    rw [setPc_self]
    exact iff_of_false hpc (by simp)
  · rw [setPc_of_ne m ht, h t', hholder]
    exact iff_of_false (fun heq => ht (Option.some.inj heq).symm) (by simp)

/-- A thread goes on inside its section. -/
lemma access (h : m.Owned) (ht : (m.pc t).InSection) (hpc : pc.InSection) (members : List S) :
    Owned { m.setPc t pc with members := members } := by
  intro t'
  show ((m.setPc t pc).pc t').InSection ↔ m.holder = some t'
  by_cases heq : t' = t
  · subst heq
    rw [setPc_self, ← h t']
    exact iff_of_true hpc ht
  · rw [setPc_of_ne m heq]
    exact h t'

/-- As long as producers wait, the lock stays with the thread in the section. -/
lemma step (h : m.Owned) (hpossible : m.Possible op) (hwait : m.ProducersWait op)
    (hstep : m.step op = .returned m') : m'.Owned := by
  obtain ⟨t, code, -, -, hfree, rfl⟩ | ⟨t, -, -, rfl⟩ | ⟨t, s, i, rfl, hpc, -⟩ |
    ⟨t, code, -, hpc, rfl⟩ | ⟨t, code, -, -, hholder, rfl⟩ := step_cases hpossible hstep
  · exact h.lock hfree trivial
  · exact h
  · exact absurd hpc (hwait t s i rfl)
  · have hsection : (Pc.sleeping code).InSection := trivial
    exact h.access (by rw [hpc]; trivial) hsection _
  · exact h.unlock hholder (not_inSection_nextTurn code)

/-- A producer that times out meets the thread that has the lock. -/
lemma excludes_iff_wait (h : m.Owned) (hpossible : m.Possible op) :
    m.Excludes op ↔ m.ProducersWait op := by
  constructor
  · rintro ⟨-, hexclusive⟩ t s i rfl hpc
    obtain ⟨-, t', hne, hholder⟩ := hpossible
    have hstep : m.step (.timeOut t) = .returned (m.setPc t (.accessing (.produce s i))) := by
      rw [TMutex.step, hpc]
    have hself : ((m.setPc t (.accessing (.produce s i))).pc t).InSection := by
      rw [setPc_self]
      trivial
    have hother : ((m.setPc t (.accessing (.produce s i))).pc t').InSection := by
      rw [setPc_of_ne m hne]
      exact (h t').2 hholder
    exact hne (hexclusive _ hstep t' t hother hself)
  · intro hwait
    refine ⟨?_, fun m' hstep => (h.step hpossible hwait hstep).exclusive⟩
    rintro t rfl
    obtain ⟨code, hpc⟩ := hpossible
    exact (h t).1 (by rw [hpc]; trivial)

end Owned

end Steps

/-! ## Runs -/

section Runs

variable {code : ι → Code S} {ops : List (Op ι)}

/-- The threads keep each other out, and give back what they have, exactly if no attempt of a
producer times out. -/
theorem excludes_iff (hops : Outcome.Throughout step Possible (init code) ops) :
    Outcome.Throughout step Excludes (init code) ops ↔
      Outcome.Throughout step ProducersWait (init code) ops := by
  refine hops.iff (fun _ _ hm hpossible => hm.excludes_iff_wait hpossible) ?_ (Owned.init code)
  intro m op m' hm hpossible hexcludes hstep
  exact hm.step hpossible ((hm.excludes_iff_wait hpossible).1 hexcludes) hstep

/-- A consumer that times out while the producer has the lock. -/
theorem excludes_iff_consumer :
    Outcome.Throughout step Possible
        (init fun producer => if producer then .produce 7 0 else .comsumpe : TMutex Bool ℕ)
        [.lock true, .timeOut false, .access true, .unlock true, .lock false] ∧
      Outcome.Throughout step Excludes
        (init fun producer => if producer then .produce 7 0 else .comsumpe : TMutex Bool ℕ)
        [.lock true, .timeOut false, .access true, .unlock true, .lock false] := by
  have hpossible : Outcome.Throughout step Possible
      (init fun producer => if producer then .produce 7 0 else .comsumpe : TMutex Bool ℕ)
      [.lock true, .timeOut false, .access true, .unlock true, .lock false] := by
    refine (Outcome.throughout_cons_returned rfl _).2 ⟨⟨⟨_, rfl⟩, rfl⟩, ?_⟩
    refine (Outcome.throughout_cons_returned rfl _).2 ⟨⟨⟨_, rfl⟩, true, by decide, rfl⟩, ?_⟩
    refine (Outcome.throughout_cons_returned rfl _).2 ⟨⟨_, rfl⟩, ?_⟩
    refine (Outcome.throughout_cons_returned rfl _).2 ⟨⟨_, rfl⟩, ?_⟩
    exact (Outcome.throughout_cons_returned rfl _).2 ⟨⟨⟨_, rfl⟩, rfl⟩, trivial⟩
  refine ⟨hpossible, (excludes_iff hpossible).2 ?_⟩
  refine (Outcome.throughout_cons_returned rfl _).2 ⟨by rintro t s i ⟨⟩, ?_⟩
  refine (Outcome.throughout_cons_returned rfl _).2 ⟨by rintro t s i ⟨⟩ ⟨⟩, ?_⟩
  refine (Outcome.throughout_cons_returned rfl _).2 ⟨by rintro t s i ⟨⟩, ?_⟩
  refine (Outcome.throughout_cons_returned rfl _).2 ⟨by rintro t s i ⟨⟩, ?_⟩
  exact (Outcome.throughout_cons_returned rfl _).2 ⟨by rintro t s i ⟨⟩, trivial⟩

/-- The producer times out while a consumer has the lock, and gives back what it does not have. -/
theorem not_excludes_producer :
    Outcome.Throughout step Possible
        (init fun producer => if producer then .produce 7 0 else .comsumpe : TMutex Bool ℕ)
        [.lock false, .timeOut true, .access true, .unlock true] ∧
      Outcome.run step
        (init fun producer => if producer then .produce 7 0 else .comsumpe : TMutex Bool ℕ)
        [.lock false, .timeOut true, .access true, .unlock true] = .faulted .notOwner ∧
      ¬ Outcome.Throughout step Excludes
        (init fun producer => if producer then .produce 7 0 else .comsumpe : TMutex Bool ℕ)
        [.lock false, .timeOut true, .access true, .unlock true] := by
  refine ⟨?_, rfl, fun h => ?_⟩
  · refine (Outcome.throughout_cons_returned rfl _).2 ⟨⟨⟨_, rfl⟩, rfl⟩, ?_⟩
    refine (Outcome.throughout_cons_returned rfl _).2 ⟨⟨⟨_, rfl⟩, false, by decide, rfl⟩, ?_⟩
    refine (Outcome.throughout_cons_returned rfl _).2 ⟨⟨_, rfl⟩, ?_⟩
    exact ⟨⟨_, rfl⟩, fun _ _ => trivial⟩
  · obtain ⟨hexcludes, -⟩ := h.2 _ rfl
    have hsame := hexcludes.exclusive _ rfl false true trivial trivial
    cases hsame

end Runs

/-! ## Consumers alone -/

section Consumers

variable {m m' : TMutex ι S} {op : Op ι} {ops : List (Op ι)}

/-- Every thread runs `Comsumpe`. -/
def Comsumes (m : TMutex ι S) : Prop := ∀ t, (m.pc t).code = some .comsumpe

lemma Comsumes.setPc (h : m.Comsumes) (t : ι) {pc : Pc S} (hpc : pc.code = some .comsumpe) :
    (m.setPc t pc).Comsumes := by
  intro t'
  by_cases ht : t' = t
  · rw [ht, setPc_self]
    exact hpc
  · rw [setPc_of_ne m ht]
    exact h t'

/-- A consumer stays one. -/
lemma Comsumes.step (h : m.Comsumes) (hpossible : m.Possible op)
    (hstep : m.step op = .returned m') : m'.Comsumes := by
  have hcode : ∀ t pc, m.pc t = pc → pc.code = some .comsumpe := by
    rintro t pc rfl
    exact h t
  obtain ⟨t, code, -, hpc, -, rfl⟩ | ⟨t, -, -, rfl⟩ | ⟨t, s, i, -, hpc, rfl⟩ |
    ⟨t, code, -, hpc, rfl⟩ | ⟨t, code, -, hpc, -, rfl⟩ := step_cases hpossible hstep
  · have hthread := hcode t _ hpc
    exact h.setPc t hthread
  · exact h
  · have hthread := hcode t _ hpc
    exact h.setPc t hthread
  · have hthread := hcode t _ hpc
    exact h.setPc t hthread
  · obtain rfl := Option.some.inj (hcode t _ hpc)
    exact h.setPc t rfl

/-- Without producers the timeouts do no harm. -/
theorem excludes_of_comsumes
    (hops : Outcome.Throughout step Possible (init fun _ : ι => (.comsumpe : Code S)) ops) :
    Outcome.Throughout step Excludes (init fun _ : ι => (.comsumpe : Code S)) ops := by
  have hwaits : ∀ (m : TMutex ι S) (op : Op ι), m.Comsumes → m.ProducersWait op := by
    rintro m op hm t s i rfl hpc
    have hcode := hm t
    rw [hpc] at hcode
    cases hcode
  refine hops.imp (fun m => m.Owned ∧ m.Comsumes) ?_ ?_ ⟨Owned.init _, fun _ => rfl⟩
  · rintro m op ⟨howned, hm⟩ hpossible
    exact (howned.excludes_iff_wait hpossible).2 (hwaits m op hm)
  · rintro m op m' ⟨howned, hm⟩ hpossible hstep
    exact ⟨howned.step hpossible (hwaits m op hm) hstep, hm.step hpossible hstep⟩

end Consumers

end TMutex

end TimedMutex
