import CPYuZe.Library.CondVar
import CPYuZe.Library.Transition

/-!
# The fixed thread pool

`fixed_thread_pool` keeps a queue of tasks, a flag for shutting down, one mutex for both and one
condition variable.  Each of its `n` workers takes the lock and does what `workerTurn` says: it
runs the first task with the lock given back, leaves its loop, or waits.  `execute` puts a task in
under the lock and notifies one worker after it has given the lock back; the destructor sets the
flag under the lock and notifies all workers after that.

A step of `Step` is a critical section, a notification, or the beginning or end of a task.  The
callers of `execute` are threads outside the pool and tasks that run in it.  An object is not used
once its destructor has been called, so no task gets in after that.

`runs_each_once` is about the tasks: they leave the queue in the order in which they got in, each
is run once, and no worker leaves before the queue is empty and the pool is shut down.
`never_sleeps_on_work` is about the notifications: as long as a task waits, a worker is awake or is
still to be notified.
-/

namespace FixedThreadPool

/-- Where a worker is. -/
inductive WorkerPc (τ : Type*)
  /-- It is to take the lock: at the beginning, behind a task, or at the end of a wait. -/
  | locking
  /-- It runs a task; `owes` if the task is in `execute` and has yet to notify. -/
  | running (task : τ) (owes : Bool)
  /-- It is in `cond_.wait`. -/
  | asleep
  /-- It has left its loop. -/
  | left

/-- Where the destructor is. -/
inductive DestructorPc
  | notStarted
  /-- The flag is set, and the workers have yet to be notified. -/
  | unlocked
  | finished

/-- The data of a pool with `n` workers, where its threads are, and what has happened to the
tasks. -/
structure Pool (τ : Type*) (n : ℕ) where
  tasks : List τ
  isShutdown : Bool
  worker : Fin n → WorkerPc τ
  /-- The threads outside the pool that have put a task in and have yet to notify. -/
  owes : ℕ → Bool
  destructor : DestructorPc
  /-- The tasks in the order in which they got into the queue. -/
  enqueued : List τ
  /-- The tasks in the order in which they left the queue. -/
  started : List τ
  /-- The tasks that have been run. -/
  finished : List τ

variable {τ : Type*} {n : ℕ}

namespace Pool

def init (n : ℕ) : Pool τ n where
  tasks := []
  isShutdown := false
  worker _ := .locking
  owes _ := false
  destructor := .notStarted
  enqueued := []
  started := []
  finished := []

def setWorker (s : Pool τ n) (i : Fin n) (pc : WorkerPc τ) : Pool τ n :=
  { s with worker := Function.update s.worker i pc }

@[simp] lemma setWorker_worker_self (s : Pool τ n) (i : Fin n) (pc : WorkerPc τ) :
    (s.setWorker i pc).worker i = pc := by
  unfold setWorker
  exact Function.update_self i pc s.worker

lemma setWorker_worker_of_ne (s : Pool τ n) {i j : Fin n} (h : j ≠ i) (pc : WorkerPc τ) :
    (s.setWorker i pc).worker j = s.worker j := by
  unfold setWorker
  exact Function.update_of_ne h pc s.worker

/-- Nobody leaves when `i` goes somewhere else. -/
lemma left_of_setWorker {s : Pool τ n} {i j : Fin n} {pc : WorkerPc τ} (hpc : pc ≠ .left)
    (h : (s.setWorker i pc).worker j = .left) : s.worker j = .left := by
  by_cases hji : j = i
  · rw [hji, setWorker_worker_self] at h
    exact absurd h hpc
  · rw [setWorker_worker_of_ne s hji] at h
    exact h

/-- `tasks_.emplace(task)`. -/
def emplace (s : Pool τ n) (task : τ) : Pool τ n :=
  { s with tasks := s.tasks ++ [task], enqueued := s.enqueued ++ [task] }

end Pool

/-- What a worker does when it has the lock. -/
inductive WorkerTurn (τ : Type*)
  | run (task : τ) (rest : List τ)
  | leave
  | wait

def workerTurn (tasks : List τ) (isShutdown : Bool) : WorkerTurn τ :=
  match tasks with
  | task :: rest => .run task rest
  | [] => if isShutdown then .leave else .wait

/-- A worker takes the lock, and gives it back to run a task, to leave or to wait. -/
def Pool.lock (s : Pool τ n) (i : Fin n) : Pool τ n :=
  match workerTurn s.tasks s.isShutdown with
  | .run task rest =>
    { s.setWorker i (.running task false) with tasks := rest, started := s.started ++ [task] }
  | .leave => s.setWorker i .left
  | .wait => s.setWorker i .asleep

/-- The three ways of a worker that has the lock. -/
lemma Pool.lock_cases (s : Pool τ n) (i : Fin n) :
    (s.tasks = [] ∧ s.isShutdown = false ∧ s.lock i = s.setWorker i .asleep) ∨
    (s.tasks = [] ∧ s.isShutdown = true ∧ s.lock i = s.setWorker i .left) ∨
    ∃ task rest, s.tasks = task :: rest ∧
      s.lock i = { s.setWorker i (.running task false) with
        tasks := rest, started := s.started ++ [task] } := by
  unfold Pool.lock
  cases htasks : s.tasks with
  | nil =>
    cases hshut : s.isShutdown with
    | false => exact .inl ⟨rfl, rfl, rfl⟩
    | true => exact .inr (.inl ⟨rfl, rfl, rfl⟩)
  | cons task rest => exact .inr (.inr ⟨task, rest, rfl, rfl⟩)

/-- A worker that is woken up takes the lock. -/
def wake : WorkerPc τ → Option (WorkerPc τ)
  | .asleep => some .locking
  | .locking | .running _ _ | .left => none

inductive Step : Pool τ n → Pool τ n → Prop
  /-- A thread outside the pool calls `execute`. -/
  | execute {s : Pool τ n} {thread : ℕ} (task : τ) :
      s.destructor = .notStarted → s.owes thread = false →
      Step s { s.emplace task with owes := Function.update s.owes thread true }
  | notify {s : Pool τ n} {thread : ℕ} {worker : Fin n → WorkerPc τ} :
      s.owes thread = true → CondVar.NotifyOne wake s.worker worker →
      Step s { s with worker := worker, owes := Function.update s.owes thread false }
  /-- A task that is run calls `execute`. -/
  | executeInside {s : Pool τ n} {i : Fin n} {current : τ} (task : τ) :
      s.destructor = .notStarted → s.worker i = .running current false →
      Step s ((s.emplace task).setWorker i (.running current true))
  | notifyInside {s : Pool τ n} {i : Fin n} {current : τ} {worker : Fin n → WorkerPc τ} :
      s.worker i = .running current true →
      CondVar.NotifyOne wake (Function.update s.worker i (.running current false)) worker →
      Step s { s with worker := worker }
  | lock {s : Pool τ n} {i : Fin n} : s.worker i = .locking → Step s (s.lock i)
  /-- `current()` returns. -/
  | finish {s : Pool τ n} {i : Fin n} {current : τ} :
      s.worker i = .running current false →
      Step s { s.setWorker i .locking with finished := s.finished ++ [current] }
  /-- A wait ends although nobody has notified. -/
  | spurious {s : Pool τ n} {i : Fin n} :
      s.worker i = .asleep → Step s (s.setWorker i .locking)
  | shutDown {s : Pool τ n} :
      s.destructor = .notStarted →
      Step s { s with isShutdown := true, destructor := .unlocked }
  | notifyAll {s : Pool τ n} :
      s.destructor = .unlocked →
      Step s { s with worker := CondVar.notifyAll wake s.worker, destructor := .finished }

/-! ## The tasks -/

/-- The task a worker runs. -/
def WorkerPc.current : WorkerPc τ → Multiset τ
  | .running task _ => {task}
  | .locking | .asleep | .left => 0

@[simp] lemma current_running (task : τ) (owes : Bool) :
    (WorkerPc.running task owes).current = {task} := rfl

@[simp] lemma current_locking : (WorkerPc.locking : WorkerPc τ).current = 0 := rfl

lemma current_wake {pc pc' : WorkerPc τ} (h : wake pc = some pc') : pc'.current = pc.current := by
  cases pc <;> cases h
  rfl

lemma left_wake {pc pc' : WorkerPc τ} (h : wake pc = some pc') :
    (pc' = .left) = (pc = .left) := by
  cases pc <;> cases h
  simp

/-- Nobody is brought to leave by being notified. -/
lemma left_of_notifyOne {worker worker' : Fin n → WorkerPc τ} {i : Fin n}
    (h : CondVar.NotifyOne wake worker worker') (hi : worker' i = .left) : worker i = .left := by
  have hframe := h.frame (fun p : WorkerPc τ => p = .left) (fun _ _ => left_wake) i
  exact hframe.mp hi

lemma left_of_notifyAll {worker : Fin n → WorkerPc τ} {i : Fin n}
    (hi : CondVar.notifyAll wake worker i = .left) : worker i = .left := by
  have hframe : (CondVar.notifyAll wake worker i = .left) = (worker i = .left) :=
    CondVar.notifyAll_frame (fun p : WorkerPc τ => p = .left) (fun _ _ => left_wake) i
  exact hframe.mp hi

/-- What holds between two steps. -/
structure Accounted (s : Pool τ n) : Prop where
  /-- The tasks that have left the queue, followed by those in it, are those that got in. -/
  inOrder : s.started ++ s.tasks = s.enqueued
  /-- The tasks that have been run and those that are run now are those that have left. -/
  once : (s.finished : Multiset τ) + ∑ i, (s.worker i).current = s.started
  left : ∀ i, s.worker i = .left → s.isShutdown = true ∧ s.tasks = []
  running : s.destructor = .notStarted → s.isShutdown = false

namespace Accounted

variable {s s' : Pool τ n} {i : Fin n}

lemma init : Accounted (Pool.init n : Pool τ n) where
  inOrder := rfl
  once := by simp [Pool.init, WorkerPc.current]
  left _ h := by cases h
  running _ := rfl

/-- As long as tasks can get in, nobody has left. -/
lemma not_left (h : Accounted s) (hopen : s.destructor = .notStarted) (i : Fin n) :
    s.worker i ≠ .left := by
  intro hleft
  have hshut := (h.left i hleft).1
  rw [h.running hopen] at hshut
  exact Bool.false_ne_true hshut

/-- Workers that go on without beginning or ending a task, and without leaving. -/
lemma of_workers (h : Accounted s) {worker : Fin n → WorkerPc τ} (owes : ℕ → Bool)
    (hcurrent : ∑ i, (worker i).current = ∑ i, (s.worker i).current)
    (hleft : ∀ i, worker i = .left → s.worker i = .left) :
    Accounted { s with worker := worker, owes := owes } where
  inOrder := h.inOrder
  once := by
    rw [hcurrent]
    exact h.once
  left i hi := h.left i (hleft i hi)
  running := h.running

lemma setWorker (h : Accounted s) {pc : WorkerPc τ} (hcurrent : pc.current = (s.worker i).current)
    (hleft : pc ≠ .left) : Accounted (s.setWorker i pc) := by
  refine h.of_workers s.owes ?_ ?_
  · have hsum := CondVar.sum_update WorkerPc.current s.worker i pc
    rw [hcurrent] at hsum
    exact add_right_cancel hsum
  · exact fun _ hj => Pool.left_of_setWorker hleft hj

lemma notifyOne (h : Accounted s) {worker : Fin n → WorkerPc τ} (owes : ℕ → Bool)
    (hnotify : CondVar.NotifyOne wake s.worker worker) :
    Accounted { s with worker := worker, owes := owes } :=
  h.of_workers owes (hnotify.sum_frame _ fun _ _ => current_wake)
    fun _ hi => left_of_notifyOne hnotify hi

lemma emplace (h : Accounted s) (hopen : s.destructor = .notStarted) (task : τ)
    (owes : ℕ → Bool) : Accounted { s.emplace task with owes := owes } where
  inOrder := by
    show s.started ++ (s.tasks ++ [task]) = s.enqueued ++ [task]
    rw [← List.append_assoc, h.inOrder]
  once := h.once
  left i hi := absurd hi (h.not_left hopen i)
  running := h.running

/-- A worker takes the lock. -/
lemma lock (h : Accounted s) (hi : s.worker i = .locking) : Accounted (s.lock i) := by
  rcases s.lock_cases i with ⟨-, -, heq⟩ | ⟨htasks, hshut, heq⟩ | ⟨task, rest, htasks, heq⟩ <;>
    rw [heq]
  · exact h.setWorker (by rw [hi]; rfl) (by simp)
  · refine ⟨h.inOrder, ?_, fun _ _ => ⟨hshut, htasks⟩, h.running⟩
    have hsum := CondVar.sum_update WorkerPc.current s.worker i .left
    rw [hi] at hsum
    exact (congrArg _ (add_right_cancel hsum)).trans h.once
  · have hinOrder := h.inOrder
    rw [htasks] at hinOrder
    refine ⟨?_, ?_, fun j hj => ?_, h.running⟩
    · show s.started ++ [task] ++ rest = s.enqueued
      rw [List.append_assoc]
      exact hinOrder
    · have hsum := CondVar.sum_update WorkerPc.current s.worker i (.running task false)
      rw [hi, current_running, current_locking, add_zero] at hsum
      show (s.finished : Multiset τ) + ∑ j, (Function.update s.worker i _ j).current =
        (s.started ++ [task] : List τ)
      rw [hsum, ← add_assoc, h.once]
      rfl
    · have hnil := (h.left j (Pool.left_of_setWorker (by simp) hj)).2
      rw [htasks] at hnil
      exact absurd hnil (List.cons_ne_nil _ _)

lemma finish (h : Accounted s) {current : τ} (hi : s.worker i = .running current false) :
    Accounted { s.setWorker i .locking with finished := s.finished ++ [current] } where
  inOrder := h.inOrder
  once := by
    have hsum := CondVar.sum_update WorkerPc.current s.worker i .locking
    rw [hi, current_running, current_locking, add_zero] at hsum
    show ((s.finished ++ [current] : List τ) : Multiset τ) +
      ∑ j, (Function.update s.worker i .locking j).current = s.started
    rw [← h.once, ← hsum, ← Multiset.coe_add, add_assoc,
      add_comm (∑ j, (Function.update s.worker i .locking j).current)]
    rfl
  left j hj := by
    exact h.left j (Pool.left_of_setWorker (by simp) hj)
  running := h.running

lemma step (h : Accounted s) (hstep : Step s s') : Accounted s' := by
  cases hstep with
  | execute task hopen _ => exact h.emplace hopen task _
  | notify _ hnotify => exact h.notifyOne _ hnotify
  | @executeInside i current task hopen hi =>
    refine (h.emplace hopen task s.owes).setWorker ?_ (by simp)
    show {current} = (s.worker i).current
    rw [hi]
    rfl
  | @notifyInside i current worker hi hnotify =>
    have hset : Accounted (s.setWorker i (.running current false)) :=
      h.setWorker (by rw [hi]; rfl) (by simp)
    exact hset.notifyOne s.owes hnotify
  | lock hi => exact h.lock hi
  | finish hi => exact h.finish hi
  | spurious hi => exact h.setWorker (by rw [hi]; rfl) (by simp)
  | shutDown _ => exact ⟨h.inOrder, h.once, fun i hi => ⟨rfl, (h.left i hi).2⟩, nofun⟩
  | notifyAll _ =>
    refine ⟨h.inOrder, ?_, fun i hi => ?_, nofun⟩
    · rw [← h.once]
      exact congrArg _ (Finset.sum_congr rfl fun i _ =>
        CondVar.notifyAll_frame WorkerPc.current (fun _ _ => current_wake) i)
    · exact h.left i (left_of_notifyAll hi)

end Accounted

/-- The tasks leave the queue in the order in which they got in, none is run twice, a worker is
gone only if the pool is shut down and the queue is empty, and when all of them are gone every
task has been run. -/
structure RunsEachOnce (s : Pool τ n) : Prop where
  inOrder : s.started ++ s.tasks = s.enqueued
  once : (s.finished : Multiset τ) + ∑ i, (s.worker i).current = s.started
  left : ∀ i, s.worker i = .left → s.isShutdown = true ∧ s.tasks = []
  allRun : (∀ i, s.worker i = .left) → s.finished.Perm s.enqueued

/-- A pool with at least one worker runs every task once, in order, and empties its queue before
it stops. -/
theorem runs_each_once (hn : 0 < n) {s : Pool τ n}
    (h : Relation.ReflTransGen Step (Pool.init n) s) : RunsEachOnce s := by
  have hs : Accounted s :=
    Transition.invariant Accounted Accounted.init (fun _ _ hs hstep => hs.step hstep) h
  refine ⟨hs.inOrder, hs.once, hs.left, fun hall => ?_⟩
  have hempty : s.tasks = [] := (hs.left ⟨0, hn⟩ (hall _)).2
  have hidle : ∑ i, (s.worker i).current = 0 :=
    Finset.sum_eq_zero fun i _ => by rw [hall i]; rfl
  have hstarted := hs.inOrder
  rw [hempty, List.append_nil] at hstarted
  have honce := hs.once
  rw [hidle, add_zero, hstarted] at honce
  exact Multiset.coe_eq_coe.1 honce

/-- One task is put in and run, the pool is shut down, and its worker leaves. -/
theorem runs_each_once_oneTask :
    ∃ s : Pool ℕ 1, s.finished = [7] ∧ (∀ i, s.worker i = .left) ∧ RunsEachOnce s := by
  refine ⟨_, ?_, ?_, runs_each_once Nat.one_pos <| Relation.ReflTransGen.refl
    |>.tail (@Step.execute ℕ 1 _ 0 7 rfl rfl)
    |>.tail (@Step.lock ℕ 1 _ 0 rfl)
    |>.tail (@Step.finish ℕ 1 _ 0 7 rfl)
    |>.tail (.shutDown rfl)
    |>.tail (@Step.lock ℕ 1 _ 0 rfl)⟩
  · rfl
  · intro i
    rw [Fin.fin_one_eq_zero i]
    rfl

/-! ## The notifications -/

/-- Somebody will look at the queue: a worker that is awake, or one that is to be notified. -/
def Attended (s : Pool τ n) : Prop :=
  (∃ i, s.worker i ≠ .asleep ∧ s.worker i ≠ .left) ∨ (∃ thread, s.owes thread = true) ∨
    s.destructor = .unlocked

structure NeverSleepsOnWork (s : Pool τ n) : Prop where
  attended : s.tasks ≠ [] → Attended s
  /-- Nobody sleeps on in a pool that is shut down. -/
  notified : s.isShutdown = true → (∃ i, s.worker i = .asleep) → s.destructor = .unlocked

/-- It is the workers that are awake that `wake` has nothing for. -/
lemma wake_eq_none_iff {pc : WorkerPc τ} : wake pc = none ↔ pc ≠ .asleep := by
  cases pc <;> simp [wake]

/-- A worker that is woken up is awake. -/
lemma wake_wake {pc pc' : WorkerPc τ} (h : wake pc = some pc') : wake pc' = none := by
  cases pc <;> cases h
  rfl

lemma asleep_of_notifyOne {worker worker' : Fin n → WorkerPc τ} {i : Fin n}
    (h : CondVar.NotifyOne wake worker worker') (hi : worker' i = .asleep) :
    worker i = .asleep := by
  by_contra hawake
  rw [h.of_awake (wake_eq_none_iff.2 hawake)] at hi
  exact hawake hi

namespace Pool

variable {s : Pool τ n} {i : Fin n} {pc : WorkerPc τ}

/-- Nobody falls asleep when `i` goes somewhere else. -/
lemma asleep_of_setWorker (hpc : pc ≠ .asleep)
    (h : ∃ j, (s.setWorker i pc).worker j = .asleep) : ∃ j, s.worker j = .asleep := by
  obtain ⟨j, hj⟩ := h
  by_cases hji : j = i
  · rw [hji, setWorker_worker_self] at hj
    exact absurd hj hpc
  · rw [setWorker_worker_of_ne s hji] at hj
    exact ⟨j, hj⟩

end Pool

namespace NeverSleepsOnWork

variable {s s' : Pool τ n} {i : Fin n}

lemma init : NeverSleepsOnWork (Pool.init n : Pool τ n) where
  attended h := absurd rfl h
  notified h := by cases h

/-- A step that leaves worker `i` awake, lets nobody fall asleep and is not the destructor's. -/
lemma of_awake (h : NeverSleepsOnWork s) (i : Fin n)
    (hi : s'.worker i ≠ .asleep ∧ s'.worker i ≠ .left) (hshut : s'.isShutdown = s.isShutdown)
    (hdestructor : s'.destructor = s.destructor)
    (hasleep : (∃ j, s'.worker j = .asleep) → ∃ j, s.worker j = .asleep) :
    NeverSleepsOnWork s' where
  attended _ := .inl ⟨i, hi⟩
  notified hshut' hsleeps := by
    rw [hdestructor]
    exact h.notified (hshut ▸ hshut') (hasleep hsleeps)

/-- A worker takes the lock. -/
lemma lock (h : NeverSleepsOnWork s) (i : Fin n) : NeverSleepsOnWork (s.lock i) := by
  rcases s.lock_cases i with ⟨htasks, hshut, heq⟩ | ⟨htasks, -, heq⟩ | ⟨task, rest, -, heq⟩ <;>
    rw [heq]
  · refine ⟨fun hne => absurd htasks hne, fun hshut' => ?_⟩
    rw [Pool.setWorker, hshut] at hshut'
    exact absurd hshut' Bool.false_ne_true
  · exact ⟨fun hne => absurd htasks hne, fun hshut hsleeps =>
      h.notified hshut (Pool.asleep_of_setWorker (by simp) hsleeps)⟩
  · exact h.of_awake i (by simp) rfl rfl (Pool.asleep_of_setWorker (by simp))

/-- Threads outside the pool put in tasks and notify workers. -/
lemma notify (h : NeverSleepsOnWork s) (hacc : Accounted s) (hn : 0 < n)
    {worker : Fin n → WorkerPc τ} (owes : ℕ → Bool)
    (hnotify : CondVar.NotifyOne wake s.worker worker) :
    NeverSleepsOnWork { s with worker := worker, owes := owes } where
  attended htasks := by
    have : Nonempty (Fin n) := ⟨⟨0, hn⟩⟩
    obtain ⟨i, hi⟩ := hnotify.exists_awake fun _ _ => wake_wake
    refine .inl ⟨i, wake_eq_none_iff.1 hi, fun hleft => ?_⟩
    exact htasks (hacc.left i (left_of_notifyOne hnotify hleft)).2
  notified hshut hsleeps := by
    obtain ⟨i, hi⟩ := hsleeps
    exact h.notified hshut ⟨i, asleep_of_notifyOne hnotify hi⟩

lemma step (h : NeverSleepsOnWork s) (hacc : Accounted s) (hn : 0 < n) (hstep : Step s s') :
    NeverSleepsOnWork s' := by
  cases hstep with
  | @execute thread task _ _ =>
    exact ⟨fun _ => .inr (.inl ⟨thread, Function.update_self thread true s.owes⟩), h.notified⟩
  | notify _ hnotify => exact h.notify hacc hn _ hnotify
  | @executeInside i _ task _ _ =>
    exact h.of_awake i (by simp) rfl rfl (Pool.asleep_of_setWorker (s := s.emplace task) (by simp))
  | @notifyInside i current worker hi hnotify =>
    have hself : worker i = .running current false :=
      (hnotify.of_awake (by simp [wake])).trans (by simp)
    refine h.of_awake i (by simp [hself]) rfl rfl ?_
    rintro ⟨j, hj⟩
    exact Pool.asleep_of_setWorker (by simp) ⟨j, asleep_of_notifyOne hnotify hj⟩
  | lock _ => exact h.lock _
  | @finish i _ _ => exact h.of_awake i (by simp) rfl rfl (Pool.asleep_of_setWorker (by simp))
  | @spurious i _ => exact h.of_awake i (by simp) rfl rfl (Pool.asleep_of_setWorker (by simp))
  | shutDown _ => exact ⟨fun _ => .inr (.inr rfl), fun _ _ => rfl⟩
  | notifyAll _ =>
    have hawake (i : Fin n) : CondVar.notifyAll wake s.worker i ≠ .asleep :=
      wake_eq_none_iff.1 (CondVar.notifyAll_awake (fun _ _ => wake_wake) i)
    refine ⟨fun htasks => .inl ⟨⟨0, hn⟩, hawake _, fun hleft => ?_⟩, fun _ hsleeps => ?_⟩
    · exact htasks (hacc.left _ (left_of_notifyAll hleft)).2
    · obtain ⟨i, hi⟩ := hsleeps
      exact absurd hi (hawake i)

end NeverSleepsOnWork

/-- As long as a task waits, a worker is awake or is still to be notified, and nobody sleeps on in
a pool that is shut down once the destructor has notified. -/
theorem never_sleeps_on_work (hn : 0 < n) {s : Pool τ n}
    (h : Relation.ReflTransGen Step (Pool.init n) s) : NeverSleepsOnWork s := by
  refine (Transition.invariant (fun s => Accounted s ∧ NeverSleepsOnWork s)
    ⟨Accounted.init, NeverSleepsOnWork.init⟩ (fun _ _ hs hstep => ?_) h).2
  exact ⟨hs.1.step hstep, hs.2.step hs.1 hn hstep⟩

/-- The only worker sleeps, and a task is put in: somebody has yet to notify. -/
theorem never_sleeps_on_work_asleep :
    ∃ s : Pool ℕ 1, s.tasks = [7] ∧ s.worker 0 = .asleep ∧ NeverSleepsOnWork s := by
  refine ⟨_, ?_, ?_, never_sleeps_on_work Nat.one_pos <| Relation.ReflTransGen.refl
    |>.tail (@Step.lock ℕ 1 _ 0 rfl)
    |>.tail (@Step.execute ℕ 1 _ 0 7 rfl rfl)⟩
  · rfl
  · rfl

end FixedThreadPool
