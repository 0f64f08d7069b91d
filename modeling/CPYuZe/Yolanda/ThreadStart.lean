import CPYuZe.Library.Transition
import CPYuZe.Yolanda.Publication

/-!
# Starting the worker threads

`thread_pool_start` starts one thread after the other.  For each of them `event_loop_thread_start`
calls `pthread_create` and waits until the thread has stored its event loop in the record they
share, which `event_loop_thread_run` does under the lock of the record before it signals.

The steps of the main thread and of the workers are those of `Quiet`, and a wait may also be over
for no reason (`Step`).  The records come from `malloc`, so what stands in them at first is
arbitrary.  Nobody looks at the result of `pthread_create`; if it fails there is no thread, and the
main thread waits for it all the same.

Which loop belongs to which thread is in every state as it should be (`threadPoolStart_sound`), and
so is what `thread_pool_get_loop` selects afterwards (`selected_owned`).  The main thread gets
through unless a call of `pthread_create` has failed (`threadPoolStart_finishes_iff`).
-/

namespace Yolanda

/-- Where the main thread is in `thread_pool_start`. -/
inductive MainPc
  /-- At the head of the loop. -/
  | head
  /-- In front of `pthread_create`. -/
  | create
  /-- In front of `pthread_mutex_lock`. -/
  | lock
  /-- It has the lock and looks at `eventLoop`. -/
  | look
  /-- In `pthread_cond_wait`. -/
  | asleep
  /-- Its wait is over, and it needs the lock again. -/
  | awake
  /-- It has given the lock back and is about to return. -/
  | leave
  deriving DecidableEq

/-- Where a worker is in `event_loop_thread_run`. -/
inductive WorkerPc
  /-- There is no such thread. -/
  | absent
  | lock
  /-- It has the lock, and calls `event_loop_init_with_name`. -/
  | init
  | signal
  | unlock
  /-- In `event_loop_run`. -/
  | run
  deriving DecidableEq

/-- Who has a lock. -/
inductive Party
  | main
  | worker
  deriving DecidableEq

/-- The thread pool while it is being started.  A worker `k` runs in the thread `k + 1`. -/
structure PoolStart where
  /-- The worker whose turn it is. -/
  i : ℕ
  main : MainPc
  worker : ℕ → WorkerPc
  /-- `eventLoop` in the record of each worker. -/
  eventLoop : ℕ → Option ℕ
  /-- `mutex` in it. -/
  mutex : ℕ → Option Party
  /-- `owner_thread_id` of each event loop there is. -/
  owners : List ℕ
  /-- What `event_loop_thread_start` has returned. -/
  returned : List (Option ℕ)

namespace PoolStart

/-- The records are arbitrary, and there is the main loop. -/
def init (memory : ℕ → Option ℕ) (locks : ℕ → Option Party) : PoolStart where
  i := 0
  main := .head
  worker _ := .absent
  eventLoop := memory
  mutex := locks
  owners := [mainLoop]
  returned := []

/-- `pthread_cond_signal` of the worker `k`. -/
def wakeMain (s : PoolStart) (k : ℕ) : MainPc :=
  if s.main = .asleep ∧ s.i = k then .awake else s.main

/-- The steps that the threads take of themselves. -/
inductive Quiet (n : ℕ) : PoolStart → PoolStart → Prop
  /-- `event_loop_thread_init`. -/
  | threadInit {s : PoolStart} (hi : s.i < n) (hmain : s.main = .head) :
      Quiet n s { s with
        main := .create
        eventLoop := Function.update s.eventLoop s.i none
        mutex := Function.update s.mutex s.i none }
  | create {s : PoolStart} (hmain : s.main = .create) :
      Quiet n s { s with main := .lock, worker := Function.update s.worker s.i .lock }
  | createFails {s : PoolStart} (hmain : s.main = .create) : Quiet n s { s with main := .lock }
  | mainLock {s : PoolStart} (hmain : s.main = .lock ∨ s.main = .awake)
      (hfree : s.mutex s.i = none) :
      Quiet n s { s with main := .look, mutex := Function.update s.mutex s.i (some .main) }
  | wait {s : PoolStart} (hmain : s.main = .look) (hnull : s.eventLoop s.i = none) :
      Quiet n s { s with main := .asleep, mutex := Function.update s.mutex s.i none }
  | mainUnlock {s : PoolStart} (hmain : s.main = .look) (hloop : s.eventLoop s.i ≠ none) :
      Quiet n s { s with main := .leave, mutex := Function.update s.mutex s.i none }
  | leave {s : PoolStart} (hmain : s.main = .leave) :
      Quiet n s { s with
        i := s.i + 1, main := .head, returned := s.returned ++ [s.eventLoop s.i] }
  | workerLock {s : PoolStart} {k : ℕ} (hk : s.worker k = .lock) (hfree : s.mutex k = none) :
      Quiet n s { s with
        worker := Function.update s.worker k .init
        mutex := Function.update s.mutex k (some .worker) }
  | loopInit {s : PoolStart} {k : ℕ} (hk : s.worker k = .init) :
      Quiet n s { s with
        worker := Function.update s.worker k .signal
        eventLoop := Function.update s.eventLoop k (some s.owners.length)
        owners := s.owners ++ [k + 1] }
  | signal {s : PoolStart} {k : ℕ} (hk : s.worker k = .signal) :
      Quiet n s { s with
        main := s.wakeMain k, worker := Function.update s.worker k .unlock }
  | workerUnlock {s : PoolStart} {k : ℕ} (hk : s.worker k = .unlock) :
      Quiet n s { s with
        worker := Function.update s.worker k .run, mutex := Function.update s.mutex k none }

inductive Step (n : ℕ) : PoolStart → PoolStart → Prop
  | quiet {s s' : PoolStart} (h : Quiet n s s') : Step n s s'
  | spurious {s : PoolStart} (hmain : s.main = .asleep) : Step n s { s with main := .awake }

/-! ## What holds in every state -/

/-- The worker has the lock of its record. -/
def locks : WorkerPc → Bool
  | .init | .signal | .unlock => true
  | .absent | .lock | .run => false

/-- The worker has stored its event loop. -/
def stored : WorkerPc → Bool
  | .signal | .unlock | .run => true
  | .absent | .lock | .init => false

/-- Who has the lock, for where the main thread and the worker are. -/
def holder (main : MainPc) (worker : WorkerPc) : Option Party :=
  if main = .look then some .main else if locks worker then some .worker else none

/-- The main thread and the worker can be there at one time. -/
def Together : MainPc → WorkerPc → Prop
  | .head, w | .create, w => w = .absent
  | .lock, _ | .awake, _ => True
  | .look, w => locks w = false
  | .asleep, w => w ≠ .unlock ∧ w ≠ .run
  | .leave, w => w = .run

/-- There is an event loop, and the worker `k` owns it. -/
def OwnedBy (owners : List ℕ) (k : ℕ) (eventLoop : Option ℕ) : Prop :=
  ∃ l, eventLoop = some l ∧ owners[l]? = some (k + 1)

/-- The main thread, the worker `k` whose turn it is, and its record. -/
structure Current (owners : List ℕ) (k : ℕ) (main : MainPc) (worker : WorkerPc)
    (mutex : Option Party) (eventLoop : Option ℕ) : Prop where
  together : Together main worker
  mutex_eq : mutex = holder main worker
  owned : stored worker = true → OwnedBy owners k eventLoop
  null : stored worker = false → eventLoop = none

namespace Current

variable {owners : List ℕ} {k : ℕ} {m : MainPc} {w : WorkerPc} {mutex : Option Party}
  {eventLoop : Option ℕ}

lemma init (owners : List ℕ) (k : ℕ) : Current owners k .create .absent none none :=
  ⟨rfl, rfl, fun h => (nomatch h), fun _ => rfl⟩

lemma create (h : Current owners k .create w mutex eventLoop) :
    Current owners k .lock .lock mutex eventLoop := by
  obtain rfl : w = .absent := h.together
  exact ⟨trivial, h.mutex_eq, fun hstored => (nomatch hstored), h.null⟩

lemma createFails (h : Current owners k .create w mutex eventLoop) :
    Current owners k .lock w mutex eventLoop := by
  obtain rfl : w = .absent := h.together
  exact ⟨trivial, h.mutex_eq, h.owned, h.null⟩

lemma free (h : Current owners k m w none eventLoop) : m ≠ .look ∧ locks w = false := by
  have hmutex := h.mutex_eq
  unfold holder at hmutex
  split_ifs at hmutex with hlook hlocks
  exact ⟨hlook, Bool.eq_false_of_not_eq_true hlocks⟩

lemma mainLock (h : Current owners k m w none eventLoop) :
    Current owners k .look w (some .main) eventLoop :=
  ⟨h.free.2, rfl, h.owned, h.null⟩

lemma wait (h : Current owners k .look w mutex none) : Current owners k .asleep w none none := by
  have hlocks : locks w = false := h.together
  have hstored : stored w = false := by
    refine Bool.eq_false_of_not_eq_true fun hstored => ?_
    obtain ⟨l, hl, -⟩ := h.owned hstored
    cases hl
  cases w with
  | absent | lock => exact ⟨⟨by decide, by decide⟩, rfl, h.owned, h.null⟩
  | init | signal | unlock => cases hlocks
  | run => cases hstored

lemma mainUnlock (h : Current owners k .look w mutex eventLoop) (hloop : eventLoop ≠ none) :
    Current owners k .leave w none eventLoop := by
  have hlocks : locks w = false := h.together
  cases w with
  | absent | lock => exact absurd (h.null rfl) hloop
  | init | signal | unlock => cases hlocks
  | run => exact ⟨rfl, rfl, h.owned, h.null⟩

lemma workerLock (h : Current owners k m .lock none eventLoop) :
    Current owners k m .init (some .worker) eventLoop := by
  have htogether := h.together
  have hlook := h.free.1
  refine ⟨?_, (if_neg hlook).symm, fun hstored => (nomatch hstored), h.null⟩
  cases m with
  | head | create => cases htogether
  | lock | awake => trivial
  | look => exact absurd rfl hlook
  | asleep => exact ⟨by decide, by decide⟩
  | leave => cases htogether

lemma loopInit (h : Current owners k m .init mutex eventLoop) :
    Current (owners ++ [k + 1]) k m .signal mutex (some owners.length) := by
  have htogether := h.together
  refine ⟨?_, h.mutex_eq, fun _ => ⟨owners.length, rfl, List.getElem?_concat_length⟩,
    fun hstored => (nomatch hstored)⟩
  cases m with
  | head | create => cases htogether
  | lock | awake => trivial
  | look => cases htogether
  | asleep => exact ⟨by decide, by decide⟩
  | leave => cases htogether

lemma signal (h : Current owners k m .signal mutex eventLoop) :
    Current owners k (if m = .asleep then .awake else m) .unlock mutex eventLoop := by
  have htogether := h.together
  have hmutex := h.mutex_eq
  cases m with
  | head | create => cases htogether
  | lock | awake => exact ⟨trivial, hmutex, fun _ => h.owned rfl, fun hstored => (nomatch hstored)⟩
  | look => cases htogether
  | asleep => exact ⟨trivial, hmutex, fun _ => h.owned rfl, fun hstored => (nomatch hstored)⟩
  | leave => cases htogether

lemma workerUnlock (h : Current owners k m .unlock mutex eventLoop) :
    Current owners k m .run none eventLoop := by
  have htogether := h.together
  cases m with
  | head | create => cases htogether
  | lock | awake => exact ⟨trivial, rfl, fun _ => h.owned rfl, fun hstored => (nomatch hstored)⟩
  | look => cases htogether
  | asleep => exact absurd rfl htogether.1
  | leave => cases htogether

lemma awake (h : Current owners k .asleep w mutex eventLoop) :
    Current owners k .awake w mutex eventLoop :=
  ⟨trivial, h.mutex_eq, h.owned, h.null⟩

end Current

/-- Every worker and its record are as they should be: those of the threads that have been started,
the one whose turn it is, and those of threads that there are not yet. -/
structure Sound (n : ℕ) (s : PoolStart) : Prop where
  le : s.i ≤ n
  current : s.main ≠ .head → s.i < n ∧
    Current s.owners s.i s.main (s.worker s.i) (s.mutex s.i) (s.eventLoop s.i)
  head : s.main = .head → s.worker s.i = .absent
  past : ∀ k < s.i, s.worker k = .run ∧ OwnedBy s.owners k (s.eventLoop k)
  future : ∀ k, s.i < k → s.worker k = .absent
  returned : s.returned = (List.range s.i).map s.eventLoop

section Steps

variable {n : ℕ} {s s' : PoolStart} {k : ℕ}

lemma init_sound (n : ℕ) (memory : ℕ → Option ℕ) (locks : ℕ → Option Party) :
    Sound n (init memory locks) where
  le := Nat.zero_le n
  current h := absurd rfl h
  head _ := rfl
  past k hk := absurd hk (Nat.not_lt_zero k)
  future _ _ := rfl
  returned := rfl

lemma OwnedBy.of_prefix {owners owners' : List ℕ} {eventLoop : Option ℕ}
    (h : OwnedBy owners k eventLoop) (howners : owners <+: owners') :
    OwnedBy owners' k eventLoop := by
  obtain ⟨l, hl, howner⟩ := h
  obtain ⟨hlt, -⟩ := List.getElem?_eq_some_iff.1 howner
  obtain ⟨more, rfl⟩ := howners
  exact ⟨l, hl, (List.getElem?_append_left hlt).trans howner⟩

/-- A step that has only to do with the worker whose turn it is. -/
lemma Sound.turn (h : Sound n s) {m : MainPc} {w : WorkerPc} {mutex : Option Party}
    {eventLoop : Option ℕ} {owners : List ℕ} (hlt : s.i < n) (hmain : m ≠ .head)
    (howners : s.owners <+: owners) (hcurrent : Current owners s.i m w mutex eventLoop) :
    Sound n ⟨s.i, m, Function.update s.worker s.i w, Function.update s.eventLoop s.i eventLoop,
      Function.update s.mutex s.i mutex, owners, s.returned⟩ where
  le := h.le
  current _ := by
    refine ⟨hlt, ?_⟩
    dsimp only
    rw [Function.update_self, Function.update_self, Function.update_self]
    exact hcurrent
  head hhead := absurd hhead hmain
  past k hk := by
    obtain ⟨hrun, howned⟩ := h.past k hk
    dsimp only
    rw [Function.update_of_ne hk.ne, Function.update_of_ne hk.ne]
    exact ⟨hrun, howned.of_prefix howners⟩
  future k hk := (Function.update_of_ne hk.ne' _ _).trans (h.future k hk)
  returned := by
    refine h.returned.trans (List.map_congr_left fun k hk => ?_)
    exact (Function.update_of_ne (List.mem_range.1 hk).ne _ _).symm

/-- A worker that has something to do is the one whose turn it is. -/
lemma Sound.turn_of_worker (h : Sound n s) (habsent : s.worker k ≠ .absent)
    (hrun : s.worker k ≠ .run) : k = s.i ∧ s.main ≠ .head := by
  have hk : k = s.i := by
    rcases lt_trichotomy k s.i with hlt | heq | hgt
    · exact absurd (h.past k hlt).1 hrun
    · exact heq
    · exact absurd (h.future k hgt) habsent
  subst hk
  exact ⟨rfl, fun hhead => habsent (h.head hhead)⟩

lemma Sound.quiet (h : Sound n s) (hstep : Quiet n s s') : Sound n s' := by
  cases hstep with
  | threadInit hi hmain =>
    have hturn := h.turn hi (by decide) List.prefix_rfl (Current.init s.owners s.i)
    rwa [← h.head hmain, Function.update_eq_self] at hturn
  | create hmain =>
    obtain ⟨hlt, hcurrent⟩ := h.current (by rw [hmain]; decide)
    rw [hmain] at hcurrent
    have hturn := h.turn hlt (by decide) List.prefix_rfl hcurrent.create
    rwa [Function.update_eq_self, Function.update_eq_self] at hturn
  | createFails hmain =>
    obtain ⟨hlt, hcurrent⟩ := h.current (by rw [hmain]; decide)
    rw [hmain] at hcurrent
    have hturn := h.turn hlt (by decide) List.prefix_rfl hcurrent.createFails
    rwa [Function.update_eq_self, Function.update_eq_self, Function.update_eq_self] at hturn
  | mainLock hmain hfree =>
    obtain ⟨hlt, hcurrent⟩ := h.current (by rcases hmain with hm | hm <;> rw [hm] <;> decide)
    rw [hfree] at hcurrent
    have hturn := h.turn hlt (by decide) List.prefix_rfl hcurrent.mainLock
    rwa [Function.update_eq_self, Function.update_eq_self] at hturn
  | wait hmain hnull =>
    obtain ⟨hlt, hcurrent⟩ := h.current (by rw [hmain]; decide)
    rw [hmain, hnull] at hcurrent
    have hturn := h.turn hlt (by decide) List.prefix_rfl hcurrent.wait
    rwa [← hnull, Function.update_eq_self, Function.update_eq_self] at hturn
  | mainUnlock hmain hloop =>
    obtain ⟨hlt, hcurrent⟩ := h.current (by rw [hmain]; decide)
    rw [hmain] at hcurrent
    have hturn := h.turn hlt (by decide) List.prefix_rfl (hcurrent.mainUnlock hloop)
    rwa [Function.update_eq_self, Function.update_eq_self] at hturn
  | leave hmain =>
    obtain ⟨hlt, hcurrent⟩ := h.current (by rw [hmain]; decide)
    rw [hmain] at hcurrent
    have hrun : s.worker s.i = .run := hcurrent.together
    refine ⟨hlt, fun hne => absurd rfl hne, fun _ => h.future _ (Nat.lt_succ_self _), ?_,
      fun k hk => h.future k (Nat.lt_of_succ_lt hk), ?_⟩
    · intro k hk
      rcases Nat.lt_succ_iff_lt_or_eq.1 hk with hbefore | rfl
      · exact h.past k hbefore
      · exact ⟨hrun, hcurrent.owned (by rw [hrun]; rfl)⟩
    · show s.returned ++ [s.eventLoop s.i] = (List.range (s.i + 1)).map s.eventLoop
      rw [List.range_succ, List.map_append, h.returned]
      rfl
  | workerLock hk hfree =>
    obtain ⟨rfl, hmain⟩ := h.turn_of_worker (by rw [hk]; decide) (by rw [hk]; decide)
    obtain ⟨hlt, hcurrent⟩ := h.current hmain
    rw [hk, hfree] at hcurrent
    have hturn := h.turn hlt hmain List.prefix_rfl hcurrent.workerLock
    rwa [Function.update_eq_self] at hturn
  | loopInit hk =>
    obtain ⟨rfl, hmain⟩ := h.turn_of_worker (by rw [hk]; decide) (by rw [hk]; decide)
    obtain ⟨hlt, hcurrent⟩ := h.current hmain
    rw [hk] at hcurrent
    have hturn := h.turn hlt hmain (List.prefix_append _ _) hcurrent.loopInit
    rwa [Function.update_eq_self] at hturn
  | signal hk =>
    obtain ⟨rfl, hmain⟩ := h.turn_of_worker (by rw [hk]; decide) (by rw [hk]; decide)
    obtain ⟨hlt, hcurrent⟩ := h.current hmain
    rw [hk] at hcurrent
    have hwake : s.wakeMain s.i = if s.main = .asleep then .awake else s.main := by
      unfold wakeMain
      simp only [and_true]
    have hturn := h.turn hlt (by split_ifs <;> [decide; exact hmain]) List.prefix_rfl
      hcurrent.signal
    rwa [← hwake, Function.update_eq_self, Function.update_eq_self] at hturn
  | workerUnlock hk =>
    obtain ⟨rfl, hmain⟩ := h.turn_of_worker (by rw [hk]; decide) (by rw [hk]; decide)
    obtain ⟨hlt, hcurrent⟩ := h.current hmain
    rw [hk] at hcurrent
    have hturn := h.turn hlt hmain List.prefix_rfl hcurrent.workerUnlock
    rwa [Function.update_eq_self] at hturn

lemma Sound.step (h : Sound n s) (hstep : Step n s s') : Sound n s' := by
  cases hstep with
  | quiet hquiet => exact h.quiet hquiet
  | spurious hmain =>
    obtain ⟨hlt, hcurrent⟩ := h.current (by rw [hmain]; decide)
    rw [hmain] at hcurrent
    have hturn := h.turn hlt (by decide) List.prefix_rfl hcurrent.awake
    rwa [Function.update_eq_self, Function.update_eq_self, Function.update_eq_self] at hturn

end Steps

/-! ## Getting through -/

/-- `thread_pool_start` has returned. -/
def Finished (n : ℕ) (s : PoolStart) : Prop := s.main = .head ∧ s.i = n

/-- The main thread waits for a thread that has not been created. -/
def Failed (s : PoolStart) : Prop :=
  s.main ≠ .head ∧ s.main ≠ .create ∧ s.worker s.i = .absent

def mainRank : MainPc → ℕ
  | .head => 12
  | .create => 11
  | .lock | .awake => 10
  | .look => 9
  | .asleep => 8
  | .leave => 7

def workerRank : WorkerPc → ℕ
  | .absent => 5
  | .lock => 4
  | .init => 3
  | .signal => 2
  | .unlock => 1
  | .run => 0

/-- What is left to do.  Waking the main thread up costs less than a step of a worker brings. -/
def remaining (n : ℕ) (s : PoolStart) : ℕ :=
  40 * (n - s.i) + mainRank s.main + 4 * workerRank (s.worker s.i)

section Progress

variable {n : ℕ} {s s' : PoolStart} {k : ℕ}

lemma remaining_quiet (h : Sound n s) (hstep : Quiet n s s') : remaining n s' < remaining n s := by
  unfold remaining
  cases hstep with
  | threadInit hi hmain =>
    dsimp only
    rw [hmain, mainRank, mainRank]
    omega
  | create hmain =>
    obtain ⟨-, hcurrent⟩ := h.current (by rw [hmain]; decide)
    rw [hmain] at hcurrent
    have habsent : s.worker s.i = .absent := hcurrent.together
    dsimp only
    rw [Function.update_self, habsent, hmain, mainRank, mainRank, workerRank, workerRank]
    omega
  | createFails hmain =>
    dsimp only
    rw [hmain, mainRank, mainRank]
    omega
  | mainLock hmain hfree =>
    dsimp only
    rcases hmain with hmain | hmain <;> rw [hmain, mainRank, mainRank] <;> omega
  | wait hmain hnull =>
    dsimp only
    rw [hmain, mainRank, mainRank]
    omega
  | mainUnlock hmain hloop =>
    dsimp only
    rw [hmain, mainRank, mainRank]
    omega
  | leave hmain =>
    obtain ⟨hlt, -⟩ := h.current (by rw [hmain]; decide)
    dsimp only
    rw [h.future _ (Nat.lt_succ_self _), hmain, mainRank, mainRank, workerRank]
    omega
  | workerLock hk hfree =>
    obtain ⟨rfl, -⟩ := h.turn_of_worker (by rw [hk]; decide) (by rw [hk]; decide)
    dsimp only
    rw [Function.update_self, hk, workerRank, workerRank]
    omega
  | loopInit hk =>
    obtain ⟨rfl, -⟩ := h.turn_of_worker (by rw [hk]; decide) (by rw [hk]; decide)
    dsimp only
    rw [Function.update_self, hk, workerRank, workerRank]
    omega
  | signal hk =>
    obtain ⟨rfl, -⟩ := h.turn_of_worker (by rw [hk]; decide) (by rw [hk]; decide)
    have hwake : mainRank (s.wakeMain s.i) ≤ mainRank s.main + 2 := by
      unfold wakeMain
      split_ifs with hasleep
      · rw [hasleep.1]
        decide
      · omega
    dsimp only
    rw [Function.update_self, hk, workerRank, workerRank]
    omega
  | workerUnlock hk =>
    obtain ⟨rfl, -⟩ := h.turn_of_worker (by rw [hk]; decide) (by rw [hk]; decide)
    dsimp only
    rw [Function.update_self, hk, workerRank, workerRank]
    omega

/-- The worker whose turn it is goes on, if it is there and is not done; it needs the lock to be
free if it does not have it. -/
lemma exists_worker_step (n : ℕ) (hlocks : locks (s.worker s.i) = true ∨
    (s.worker s.i = .lock ∧ s.mutex s.i = none)) :
    ∃ s', Quiet n s s' ∧ s'.i = s.i ∧ s'.worker s.i ≠ .absent := by
  rcases hlocks with hlocks | ⟨hlock, hfree⟩
  · cases hw : s.worker s.i with
    | absent | lock | run =>
      rw [hw] at hlocks
      cases hlocks
    | init => exact ⟨_, .loopInit hw, rfl, by dsimp only; rw [Function.update_self]; decide⟩
    | signal => exact ⟨_, .signal hw, rfl, by dsimp only; rw [Function.update_self]; decide⟩
    | unlock => exact ⟨_, .workerUnlock hw, rfl, by dsimp only; rw [Function.update_self]; decide⟩
  · exact ⟨_, .workerLock hlock hfree, rfl, by dsimp only; rw [Function.update_self]; decide⟩

/-- As long as the pool is not started and no thread is missing, there is a step, and none has to be
missing after it. -/
lemma exists_quiet (h : Sound n s) (hfinished : ¬ Finished n s) (hfailed : ¬ Failed s) :
    ∃ s', Quiet n s s' ∧ ¬ Failed s' := by
  have hworker (s' : PoolStart) (hi : s'.i = s.i) (hw : s'.worker s.i ≠ .absent) : ¬ Failed s' :=
    fun hfailed' => hw (hi ▸ hfailed'.2.2)
  have hkeeps (hmain : s.main ≠ .head) (hmain' : s.main ≠ .create) :
      s.worker s.i ≠ .absent := fun habsent => hfailed ⟨hmain, hmain', habsent⟩
  cases hmain : s.main with
  | head =>
    have hlt : s.i < n := lt_of_le_of_ne h.le fun heq => hfinished ⟨hmain, heq⟩
    exact ⟨_, .threadInit hlt hmain, fun hfailed' => hfailed'.2.1 rfl⟩
  | create =>
    refine ⟨_, .create hmain, hworker _ rfl ?_⟩
    dsimp only
    rw [Function.update_self]
    decide
  | lock | awake =>
    have hpresent := hkeeps (by rw [hmain]; decide) (by rw [hmain]; decide)
    obtain ⟨-, hcurrent⟩ := h.current (by rw [hmain]; decide)
    cases hlocks : locks (s.worker s.i) with
    | true =>
      obtain ⟨s', hstep, hi, hw⟩ := exists_worker_step n (.inl hlocks)
      exact ⟨s', hstep, hworker s' hi hw⟩
    | false =>
      have hfree : s.mutex s.i = none := by
        rw [hcurrent.mutex_eq, hmain, holder, if_neg (by decide), hlocks]
        rfl
      refine ⟨_, .mainLock ?_ hfree, hworker _ rfl hpresent⟩
      simp [hmain]
  | look =>
    have hpresent := hkeeps (by rw [hmain]; decide) (by rw [hmain]; decide)
    by_cases hnull : s.eventLoop s.i = none
    · exact ⟨_, .wait hmain hnull, hworker _ rfl hpresent⟩
    · exact ⟨_, .mainUnlock hmain hnull, hworker _ rfl hpresent⟩
  | asleep =>
    have hpresent := hkeeps (by rw [hmain]; decide) (by rw [hmain]; decide)
    obtain ⟨-, hcurrent⟩ := h.current (by rw [hmain]; decide)
    rw [hmain] at hcurrent
    have hready : locks (s.worker s.i) = true ∨
        (s.worker s.i = .lock ∧ s.mutex s.i = none) := by
      have htogether : Together .asleep (s.worker s.i) := hcurrent.together
      have hmutex := hcurrent.mutex_eq
      cases hw : s.worker s.i with
      | absent => exact absurd hw hpresent
      | lock =>
        rw [hw] at hmutex
        exact .inr ⟨rfl, hmutex⟩
      | init | signal | unlock => exact .inl rfl
      | run => exact absurd hw htogether.2
    obtain ⟨s', hstep, hi, hw⟩ := exists_worker_step n hready
    exact ⟨s', hstep, hworker s' hi hw⟩
  | leave => exact ⟨_, .leave hmain, fun hfailed' => hfailed'.1 rfl⟩

/-- A thread that is missing is never there, and the main thread does not get past it. -/
lemma Failed.step (h : Failed s) (hsound : Sound n s) (hstep : Step n s s') : Failed s' := by
  obtain ⟨hhead, hcreate, habsent⟩ := h
  obtain ⟨-, hcurrent⟩ := hsound.current hhead
  rw [habsent] at hcurrent
  have hidle {k : ℕ} (hne : s.worker k ≠ .absent) (hrun : s.worker k ≠ .run) : False := by
    obtain ⟨rfl, -⟩ := hsound.turn_of_worker hne hrun
    exact hne habsent
  cases hstep with
  | spurious hmain => exact ⟨nofun, nofun, habsent⟩
  | quiet hquiet =>
    cases hquiet with
    | threadInit hi hmain => exact absurd hmain hhead
    | create hmain => exact absurd hmain hcreate
    | createFails hmain => exact absurd hmain hcreate
    | mainLock hmain hfree => exact ⟨nofun, nofun, habsent⟩
    | wait hmain hnull => exact ⟨nofun, nofun, habsent⟩
    | mainUnlock hmain hloop => exact absurd (hcurrent.null rfl) hloop
    | leave hmain =>
      have htogether := hcurrent.together
      rw [hmain] at htogether
      cases htogether
    | workerLock hk hfree => exact (hidle (by rw [hk]; decide) (by rw [hk]; decide)).elim
    | loopInit hk => exact (hidle (by rw [hk]; decide) (by rw [hk]; decide)).elim
    | signal hk => exact (hidle (by rw [hk]; decide) (by rw [hk]; decide)).elim
    | workerUnlock hk => exact (hidle (by rw [hk]; decide) (by rw [hk]; decide)).elim

lemma exists_finished (h : Sound n s) (hfailed : ¬ Failed s) :
    ∃ s', Relation.ReflTransGen (Step n) s s' ∧ Finished n s' := by
  refine Transition.exists_final (fun s => Sound n s ∧ ¬ Failed s) (Finished n) (remaining n) ?_
    ⟨h, hfailed⟩
  rintro s ⟨hs, hfailed⟩ hfinished
  obtain ⟨s', hstep, hfailed'⟩ := exists_quiet hs hfinished hfailed
  exact ⟨s', .quiet hstep, ⟨hs.quiet hstep, hfailed'⟩, remaining_quiet hs hstep⟩

end Progress

section Main

variable {n : ℕ} {memory : ℕ → Option ℕ} {locks : ℕ → Option Party} {s : PoolStart}

lemma sound_of_reaches (h : Relation.ReflTransGen (Step n) (init memory locks) s) : Sound n s :=
  Transition.invariant (Sound n) (init_sound n memory locks) (fun _ _ hs hstep => hs.step hstep) h

/-- In every state, a thread that has been started has returned the loop in its record, which is its
own; a worker in `event_loop_run` has its own loop; and the main thread does not sleep through the
signal it waits for. -/
theorem threadPoolStart_sound (h : Relation.ReflTransGen (Step n) (init memory locks) s) :
    (∀ k < s.i, ∃ l, s.returned[k]? = some (some l) ∧ s.eventLoop k = some l ∧
      s.owners[l]? = some (k + 1)) ∧
    (∀ k, s.worker k = .run → ∃ l, s.eventLoop k = some l ∧ s.owners[l]? = some (k + 1)) ∧
    (s.main = .asleep → s.worker s.i ≠ .unlock ∧ s.worker s.i ≠ .run) := by
  have hs := sound_of_reaches h
  refine ⟨fun k hk => ?_, fun k hk => ?_, fun hmain => ?_⟩
  · obtain ⟨l, hl, howner⟩ := (hs.past k hk).2
    refine ⟨l, ?_, hl, howner⟩
    rw [hs.returned, List.getElem?_map, List.getElem?_range hk, Option.map_some, hl]
  · rcases lt_trichotomy k s.i with hlt | rfl | hgt
    · exact (hs.past k hlt).2
    · have hmain : s.main ≠ .head := fun hhead => by
        rw [hs.head hhead] at hk
        cases hk
      obtain ⟨-, hcurrent⟩ := hs.current hmain
      exact hcurrent.owned (by rw [hk]; rfl)
    · rw [hs.future k hgt] at hk
      cases hk
  · obtain ⟨-, hcurrent⟩ := hs.current (by rw [hmain]; decide)
    rw [hmain] at hcurrent
    exact hcurrent.together

/-- One worker is started. -/
theorem threadPoolStart_sound_one : ∃ s l, Finished 1 s ∧ s.returned[0]? = some (some l) ∧
    s.owners[l]? = some 1 := by
  have hsound := init_sound 1 (fun _ => none) fun _ => none
  obtain ⟨s, hreach, hfinished⟩ := exists_finished hsound fun hfailed => hfailed.1 rfl
  obtain ⟨l, hreturned, -, howner⟩ := (threadPoolStart_sound hreach).1 0
    (by rw [hfinished.2]; exact Nat.zero_lt_one)
  exact ⟨s, l, hfinished, hreturned, howner⟩

/-- From every state `thread_pool_start` can return, unless the main thread waits for a thread that
could not be created; then it never does. -/
theorem threadPoolStart_finishes_iff (h : Relation.ReflTransGen (Step n) (init memory locks) s) :
    (∃ s', Relation.ReflTransGen (Step n) s s' ∧ Finished n s') ↔ ¬ Failed s := by
  have hs := sound_of_reaches h
  constructor
  · rintro ⟨s', hrun, hfinished⟩ hfailed
    have hstays : Sound n s' ∧ Failed s' := by
      refine Transition.invariant (fun s => Sound n s ∧ Failed s) ⟨hs, hfailed⟩ ?_ hrun
      exact fun s₁ s₂ h₁ hstep => ⟨h₁.1.step hstep, h₁.2.step h₁.1 hstep⟩
    exact hstays.2.1 hfinished.1
  · exact exists_finished hs

theorem threadPoolStart_finishes_iff_init : ∃ s', Relation.ReflTransGen (Step 3)
    (init (fun _ => some 7) fun _ => none) s' ∧ Finished 3 s' :=
  (threadPoolStart_finishes_iff .refl).2 fun hfailed => hfailed.1 rfl

/-- Whatever the order of the steps, there are only so many, apart from waits that are over for no
reason; and it is only at the end, or when a thread is missing, that there are no more. -/
theorem threadPoolStart_ends (h : Relation.ReflTransGen (Step n) (init memory locks) s) :
    (∀ (run : ℕ → PoolStart) (m : ℕ), run 0 = s →
      (∀ j < m, Quiet n (run j) (run (j + 1))) → m ≤ remaining n s) ∧
    ((∀ s', ¬ Quiet n s s') → Finished n s ∨ Failed s) := by
  have hs := sound_of_reaches h
  constructor
  · rintro run m rfl hrun
    exact Transition.length_le_measure (Sound n) (remaining n)
      (fun s s' hs hstep => ⟨hs.quiet hstep, remaining_quiet hs hstep⟩) hrun hs
  · intro hstop
    by_contra hnone
    obtain ⟨hfinished, hfailed⟩ := not_or.1 hnone
    obtain ⟨s', hstep, -⟩ := exists_quiet hs hfinished hfailed
    exact hstop s' hstep

theorem threadPoolStart_ends_init : ∃ s', Quiet 2 (init (fun _ => some 7) fun _ => none) s' := by
  by_contra hnone
  rcases (threadPoolStart_ends .refl).2 fun s' hstep => hnone ⟨s', hstep⟩ with hfinished | hfailed
  · exact absurd hfinished.2 (by decide)
  · exact hfailed.1 rfl

/-- The loops that these many calls of `thread_pool_get_loop` select. -/
def selected : ℕ → ThreadPool → List ℕ
  | 0, _ => []
  | m + 1, pool => (threadPoolGetLoop pool).1 :: selected m (threadPoolGetLoop pool).2

/-- Each of them is the loop in the record of a worker, and runs in its thread, whichever calls have
come before; without workers it is the main loop. -/
theorem selected_owned (h : Relation.ReflTransGen (Step n) (init memory locks) s)
    (hfinished : Finished n s) (m : ℕ) :
    ∀ loop ∈ selected m ⟨n, 0⟩, (n = 0 ∧ loop = mainLoop) ∨
      ∃ k < n, ∃ l, loop = k + 1 ∧ s.eventLoop k = some l ∧ s.owners[l]? = some loop := by
  have hs := sound_of_reaches h
  have hpast : ∀ k < n, OwnedBy s.owners k (s.eventLoop k) := fun k hk =>
    (hs.past k (hfinished.2 ▸ hk)).2
  suffices hall : ∀ m position, (position < n ∨ n = 0) → ∀ loop ∈ selected m ⟨n, position⟩,
      (n = 0 ∧ loop = mainLoop) ∨
        ∃ k < n, ∃ l, loop = k + 1 ∧ s.eventLoop k = some l ∧ s.owners[l]? = some loop by
    refine hall m 0 ?_
    rcases Nat.eq_zero_or_pos n with hzero | hpos
    · exact .inr hzero
    · exact .inl hpos
  intro m
  induction m with
  | zero => exact fun _ _ loop hloop => nomatch hloop
  | succ m ih =>
    intro position hposition loop hloop
    rcases Nat.eq_zero_or_pos n with rfl | hpos
    · rcases List.mem_cons.1 hloop with rfl | hrest
      · exact .inl ⟨rfl, rfl⟩
      · exact ih position (.inr rfl) loop hrest
    · have hlt : position < n := hposition.resolve_right hpos.ne'
      have hget : threadPoolGetLoop ⟨n, position⟩ =
          (position + 1, ⟨n, if position + 1 ≥ n then 0 else position + 1⟩) := if_pos hpos
      rw [selected, hget] at hloop
      rcases List.mem_cons.1 hloop with rfl | hrest
      · obtain ⟨l, hl, howner⟩ := hpast position hlt
        exact .inr ⟨position, hlt, l, rfl, hl, howner⟩
      · refine ih _ (.inl ?_) loop hrest
        split_ifs <;> omega

theorem selected_owned_two : ∃ s, Finished 2 s ∧ ∀ loop ∈ selected 3 ⟨2, 0⟩,
    ∃ l : ℕ, s.owners[l]? = some loop := by
  have hsound := init_sound 2 (fun _ => none) fun _ => none
  obtain ⟨s, hreach, hfinished⟩ := exists_finished hsound fun hfailed => hfailed.1 rfl
  refine ⟨s, hfinished, fun loop hloop => ?_⟩
  rcases selected_owned hreach hfinished 3 loop hloop with ⟨htwo, -⟩ | ⟨k, -, l, -, -, howner⟩
  · cases htwo
  · exact ⟨l, howner⟩

end Main

end PoolStart

end Yolanda
