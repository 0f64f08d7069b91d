import CPYuZe.Library.CondVar
import CPYuZe.Library.Outcome

/-!
# The connection pool

`connection_pool` keeps its idle connections in a queue and counts all that it has made and not
deleted.  Four activities work on it.  `getconnection` takes the first idle connection and hands
it out in a `shared_ptr` whose deleter puts it back; a thread of its own makes a connection
whenever the queue is found empty and the count is below `_max_size`; another one deletes
connections that have been idle too long, down to `_init_size`.

All of them hold `_queue_mutex` for as long as they look at the pool, so a step of `Op` is what one
of them does from taking the lock to giving it back, in `wait_for` or `wait` or for good.  The one
condition variable of the pool is shared by the consumers, who wait for a connection, and the
producer, who waits for the queue to run empty.

Connections are numbered in the order in which they are allocated.  Those whose `connect` has
failed are in none of the lists.  `clock()` may return anything; its readings come with the steps
and are kept in `readings`.
-/

namespace ConnectionPool

/-- The members that nothing changes, with what they are in the program. -/
structure Config where
  initSize : ℕ := 10
  maxSize : ℕ := 1024
  /-- In seconds. -/
  maxIdleTime : ℤ := 60

/-- `std::cv_status`. -/
inductive CvStatus
  | noTimeout
  | timeout

/-- Where a thread is in `getconnection`. -/
inductive ConsumerPc
  | outside
  /-- It is in `_cv.wait_for`. -/
  | asleep
  /-- Its wait is over, and it is to take the lock again. -/
  | woken

/-- Where the thread of `produce_connection_task` is. -/
inductive ProducerPc
  | locking
  /-- It is in `_cv.wait`. -/
  | asleep

structure Pool where
  connectionQue : List ℕ
  connectionCnt : ℤ
  /-- `_alivetime` of every connection. -/
  alivetime : ℕ → ℤ
  consumer : ℕ → ConsumerPc
  producer : ProducerPc
  /-- The connections that have been handed out, with one entry for each `shared_ptr` that
  `getconnection` has returned and that has not run its deleter. -/
  lent : List ℕ
  deleted : List ℕ
  /-- The number of connections that have been allocated. -/
  allocated : ℕ
  /-- What `clock()` has returned. -/
  readings : List ℤ
  /-- Whether `_cv` has been notified since the queue last became non-empty. -/
  notified : Bool

/-- What the language does not define. -/
inductive Fault
  /-- `_connection_que.front()` with an empty queue. -/
  | frontOfEmpty
  deriving DecidableEq

namespace Pool

/-- The pool at the beginning of its constructor.  It has static storage, so that the counter,
which is not initialised, is 0. -/
def empty : Pool where
  connectionQue := []
  connectionCnt := 0
  alivetime _ := 0
  consumer _ := .outside
  producer := .locking
  lent := []
  deleted := []
  allocated := 0
  readings := []
  notified := false

/-- `pcon->refresh_alivetime()`, with `clock()` returning `t`. -/
def refreshAlivetime (s : Pool) (pcon : ℕ) (t : ℤ) : Pool :=
  { s with alivetime := Function.update s.alivetime pcon t, readings := s.readings ++ [t] }

/-- `_connection_que.push(pcon)`. -/
def push (s : Pool) (pcon : ℕ) : Pool :=
  { s with
    connectionQue := s.connectionQue ++ [pcon]
    notified := !s.connectionQue.isEmpty && s.notified }

/-- A new connection: its `connect` fails, or succeeds and `clock()` returns `t` behind it. -/
def newConnection (s : Pool) : Option ℤ → Pool
  | none => { s with allocated := s.allocated + 1 }
  | some t =>
    { (s.refreshAlivetime s.allocated t).push s.allocated with
      allocated := s.allocated + 1, connectionCnt := s.connectionCnt + 1 }

/-- The constructor makes `_init_size` connections. -/
def init {initSize : ℕ} (connects : Fin initSize → Option ℤ) : Pool :=
  (List.ofFn connects).foldl newConnection empty

end Pool

def wakeConsumer : ConsumerPc → Option ConsumerPc
  | .asleep => some .woken
  | .outside | .woken => none

namespace Pool

/-- `_cv.notify_all()`.  The producer goes on if it waits, and stays where it is if not. -/
def notifyAll (s : Pool) : Pool :=
  { s with
    consumer := CondVar.notifyAll wakeConsumer s.consumer
    producer := .locking
    notified := true }

def setConsumer (s : Pool) (thread : ℕ) (pc : ConsumerPc) : Pool :=
  { s with consumer := Function.update s.consumer thread pc }

end Pool

/-- What `getconnection` does when it looks at the queue. -/
inductive ConsumerTurn
  | take (conn : ℕ) (rest : List ℕ)
  /-- It returns `nullptr`. -/
  | giveUp
  | wait

/-- `status` is what `wait_for` has returned, or `none` if it has not been called yet. -/
def consumerTurn (status : Option CvStatus) : List ℕ → ConsumerTurn
  | conn :: rest => .take conn rest
  | [] =>
    match status with
    | some .timeout => .giveUp
    | some .noTimeout | none => .wait

namespace Pool

/-- `getconnection` from taking the lock to giving it back. -/
def getconnection (s : Pool) (thread : ℕ) (status : Option CvStatus) : Pool :=
  match consumerTurn status s.connectionQue with
  | .take conn rest =>
    { s.setConsumer thread .outside with connectionQue := rest, lent := conn :: s.lent }.notifyAll
  | .giveUp => s.setConsumer thread .outside
  | .wait => s.setConsumer thread .asleep

/-- The deleter of the `shared_ptr` that holds `pcon`. -/
def deleter (s : Pool) (pcon : ℕ) (t : ℤ) : Pool :=
  { (s.refreshAlivetime pcon t).push pcon with lent := s.lent.erase pcon }

/-- One round of `produce_connection_task`. -/
def produceConnectionTask (cfg : Config) (s : Pool) (connect : Option ℤ) : Pool :=
  match s.connectionQue with
  | _ :: _ => { s with producer := .asleep }
  | [] => (if s.connectionCnt < cfg.maxSize then s.newConnection connect else s).notifyAll

/-- One round of the loop in `scan_connection_task`, with `clock()` returning `t`. -/
def scanTurn (cfg : Config) (s : Pool) (t : ℤ) : Outcome Fault (Outcome.Turn Pool Pool) :=
  if s.connectionCnt > cfg.initSize then
    match s.connectionQue with
    | [] => .faulted .frontOfEmpty
    | p :: rest =>
      if t - s.alivetime p > 1000 * cfg.maxIdleTime then
        .returned (.next { s with
          connectionQue := rest
          connectionCnt := s.connectionCnt - 1
          deleted := p :: s.deleted
          readings := s.readings ++ [t] })
      else .returned (.done { s with readings := s.readings ++ [t] })
  else .returned (.done s)

/-- The loop in `scan_connection_task`, with what `clock()` returns in its rounds. -/
def scanConnectionTask (cfg : Config) (s : Pool) : List ℤ → Outcome Fault Pool
  | [] => .running
  | t :: ts =>
    match scanTurn cfg s t with
    | .returned (.done s') => .returned s'
    | .returned (.next s') => scanConnectionTask cfg s' ts
    | .faulted f => .faulted f
    | .running => .running

end Pool

/-- What a thread does while it holds the lock, or the end of a wait. -/
inductive Op
  /-- A thread calls `getconnection`. -/
  | getconnection (thread : ℕ)
  /-- A wait for a connection is over, by the timeout or for no reason. -/
  | wakeUp (thread : ℕ)
  /-- A thread whose wait is over looks at the queue again.  `wait_for` may report a timeout also
  to a thread that has been notified. -/
  | resume (thread : ℕ) (status : CvStatus)
  /-- The last `shared_ptr` to a connection goes. -/
  | release (pcon : ℕ) (t : ℤ)
  | produce (connect : Option ℤ)
  /-- The producer's wait is over for no reason. -/
  | wakeProducer
  | scan (readings : List ℤ)

def step (cfg : Config) (s : Pool) : Op → Outcome Fault Pool
  | .getconnection thread => .returned (s.getconnection thread none)
  | .wakeUp thread => .returned (s.setConsumer thread .woken)
  | .resume thread status => .returned (s.getconnection thread status)
  | .release pcon t => .returned (s.deleter pcon t)
  | .produce connect => .returned (s.produceConnectionTask cfg connect)
  | .wakeProducer => .returned { s with producer := .locking }
  | .scan readings => s.scanConnectionTask cfg readings

/-- The steps that can be next. -/
def Possible (s : Pool) : Op → Prop
  | .getconnection thread => s.consumer thread = .outside
  | .wakeUp thread => s.consumer thread = .asleep
  | .resume thread _ => s.consumer thread = .woken
  | .release pcon _ => pcon ∈ s.lent
  | .produce _ => s.producer = .locking
  | .wakeProducer => s.producer = .asleep
  | .scan _ => True

/-! ## Spec lemmas -/

namespace Pool

variable {cfg : Config} {s s' : Pool}

/-- The three ways of `getconnection`. -/
lemma getconnection_cases (s : Pool) (thread : ℕ) (status : Option CvStatus) :
    (∃ conn rest, s.connectionQue = conn :: rest ∧
      s.getconnection thread status =
        { s.setConsumer thread .outside with
          connectionQue := rest, lent := conn :: s.lent }.notifyAll) ∨
    (s.connectionQue = [] ∧ s.getconnection thread status = s.setConsumer thread .outside) ∨
    (s.connectionQue = [] ∧ s.getconnection thread status = s.setConsumer thread .asleep) := by
  unfold getconnection
  cases hque : s.connectionQue with
  | cons conn rest => exact .inl ⟨conn, rest, rfl, rfl⟩
  | nil =>
    match status with
    | some .timeout => exact .inr (.inl ⟨rfl, rfl⟩)
    | some .noTimeout => exact .inr (.inr ⟨rfl, rfl⟩)
    | none => exact .inr (.inr ⟨rfl, rfl⟩)

/-- The three ways of the producer. -/
lemma produceConnectionTask_cases (cfg : Config) (s : Pool) (connect : Option ℤ) :
    (s.connectionQue ≠ [] ∧
      s.produceConnectionTask cfg connect = { s with producer := .asleep }) ∨
    (s.connectionQue = [] ∧ s.connectionCnt < cfg.maxSize ∧
      s.produceConnectionTask cfg connect = (s.newConnection connect).notifyAll) ∨
    (s.connectionQue = [] ∧ s.produceConnectionTask cfg connect = s.notifyAll) := by
  unfold produceConnectionTask
  cases hque : s.connectionQue with
  | cons conn rest => exact .inl ⟨List.cons_ne_nil _ _, rfl⟩
  | nil =>
    by_cases hcnt : s.connectionCnt < cfg.maxSize
    · exact .inr (.inl ⟨rfl, hcnt, by simp only [if_pos hcnt]⟩)
    · exact .inr (.inr ⟨rfl, by simp only [if_neg hcnt]⟩)

/-- What one round of the scan does to the pool if it does not go wrong: it only reads the clock,
or not even that, or it deletes the first idle connection. -/
lemma scanTurn_cases {t : ℤ} {turn : Outcome.Turn Pool Pool}
    (h : s.scanTurn cfg t = .returned turn) :
    (∃ readings, turn = .done { s with readings := readings }) ∨
    ∃ p rest, s.connectionQue = p :: rest ∧ cfg.initSize < s.connectionCnt ∧
      turn = .next { s with
        connectionQue := rest
        connectionCnt := s.connectionCnt - 1
        deleted := p :: s.deleted
        readings := s.readings ++ [t] } := by
  unfold scanTurn at h
  split at h
  · next hcnt =>
    cases hque : s.connectionQue with
    | nil => simp [hque] at h
    | cons p rest =>
      simp only [hque] at h
      split at h
      · next => exact .inr ⟨p, rest, rfl, hcnt, by simpa using h.symm⟩
      · next => exact .inl ⟨_, by simpa using h.symm⟩
  · next => exact .inl ⟨_, by simpa using h.symm⟩

/-- What reading the clock and deleting the first idle connection preserve, the scan preserves. -/
lemma scanConnectionTask_preserves (inv : Pool → Prop)
    (hread : ∀ s readings, inv s → inv { s with readings := readings })
    (hdelete : ∀ s p rest readings, inv s → s.connectionQue = p :: rest →
      inv { s with
        connectionQue := rest
        connectionCnt := s.connectionCnt - 1
        deleted := p :: s.deleted
        readings := readings })
    {ts : List ℤ} (hs : inv s) (h : s.scanConnectionTask cfg ts = .returned s') : inv s' := by
  induction ts generalizing s with
  | nil => cases h
  | cons t ts ih =>
    rw [scanConnectionTask] at h
    cases hturn : s.scanTurn cfg t with
    | faulted f => simp [hturn] at h
    | running => simp [hturn] at h
    | returned turn =>
      rcases scanTurn_cases hturn with ⟨readings, rfl⟩ | ⟨p, rest, hque, -, rfl⟩
      · simp only [hturn, Outcome.returned.injEq] at h
        rw [← h]
        exact hread s readings hs
      · simp only [hturn] at h
        exact ih (hdelete s p rest _ hs hque) h

end Pool

end ConnectionPool
