import CPYuZe.Yolanda.Common

/-!
# A connection between two threads

`handle_connection_established` runs in the thread of the main loop and makes a connection for
the loop of another thread: it allocates, lets the connection-completed callback create the
request, puts the add request into the pending list of that loop, and sets `data` only then.
The other thread may drain its list and dispatch a read event as soon as the request is in.

The steps of the threads are those of `Op`, in any order that `Possible` admits: the acceptor
goes through its four steps, and the thread of the main loop does nothing else meanwhile.  With
the steps of a read event goes the call of `http_onMessage`, which looks at `data` and `request`
of its connection.  Both are what they are meant to be exactly if the acceptor is done with the
connection (`initialised_iff`), and without worker threads it always is
(`initialised_of_no_threads`).

Requests and servers are known by their addresses.  A descriptor may be found taken in the
channel map, so a drain comes with the connections it enters.
-/

namespace Yolanda

/-- `struct thread_pool`: the number of worker threads and the next one to be chosen. -/
structure ThreadPool where
  threadNumber : ℕ
  position : ℕ

/-- The main loop; the loop of the worker thread `i` is `i + 1`. -/
def mainLoop : ℕ := 0

def threadPoolGetLoop (pool : ThreadPool) : ℕ × ThreadPool :=
  if pool.threadNumber > 0 then
    (pool.position + 1,
      { pool with
        position := if pool.position + 1 ≥ pool.threadNumber then 0 else pool.position + 1 })
  else (mainLoop, pool)

/-- How far a connection has got in the records of its loop. -/
inductive Registration
  | none
  /-- Its add request is in the pending list. -/
  | pending
  /-- It is in the channel map. -/
  | entered
  /-- It has been taken out of the channel map, or it was refused. -/
  | removed
  deriving DecidableEq

/-- `data` and `request` are `none` as long as nothing is stored in them. -/
structure Accepted where
  eventLoop : ℕ
  data : Option ℕ
  request : Option ℕ
  registration : Registration

/-- What the acceptor has done for the connection it is making. -/
inductive Stage
  | allocated
  | completed
  | queued
  deriving DecidableEq

structure ServerThreads where
  /-- `data` of the server. -/
  data : Option ℕ
  threadPool : ThreadPool
  connections : ℕ → Accepted
  /-- The number of connections accepted so far; they are the numbers below it. -/
  accepted : ℕ
  /-- The connection that is being made. -/
  making : Option (ℕ × Stage)
  /-- The connection each request was created for, by the address of the request. -/
  requests : List ℕ

namespace ServerThreads

def init (server threadNumber : ℕ) : ServerThreads where
  data := some server
  threadPool := ⟨threadNumber, 0⟩
  connections _ := ⟨mainLoop, none, none, .none⟩
  accepted := 0
  making := none
  requests := []

def setConnection (s : ServerThreads) (c : ℕ) (a : Accepted) : ServerThreads :=
  { s with connections := Function.update s.connections c a }

/-- `event_loop_handle_pending_channel` of one loop; `enters` are the connections whose
descriptor is not taken. -/
def drain (s : ServerThreads) (loop : ℕ) (enters : ℕ → Bool) : ServerThreads :=
  { s with connections := fun c =>
      let a := s.connections c
      if a.eventLoop = loop ∧ a.registration = .pending then
        { a with registration := if enters c then .entered else .removed }
      else a }

end ServerThreads

inductive ThreadOp
  /-- `accept`, the choice of a loop, and the allocation in `tcp_connection_new`. -/
  | accept
  /-- The connection-completed callback creates the request. -/
  | completed
  /-- The add request is put into the list of the loop, and the loop is woken up or, if it is
  the acceptor's own, drained. -/
  | queue (enters : ℕ → Bool)
  /-- `data` is set, and `handle_connection_established` returns. -/
  | setData
  /-- A loop drains its pending list. -/
  | drain (loop : ℕ) (enters : ℕ → Bool)
  /-- A read event that calls `http_onMessage`. -/
  | message (c : ℕ)
  /-- A read event at the end of the stream, which removes the connection. -/
  | endOfStream (c : ℕ) (enters : ℕ → Bool)

namespace ServerThreads

/-- The thread of the loop is not in `handle_connection_established`. -/
def Free (s : ServerThreads) (loop : ℕ) : Prop := loop = mainLoop → s.making = none

/-- Whose turn it can be. -/
def Possible (s : ServerThreads) : ThreadOp → Prop
  | .accept => s.making = none
  | .completed => ∃ c, s.making = some (c, .allocated)
  | .queue _ => ∃ c, s.making = some (c, .completed)
  | .setData => ∃ c, s.making = some (c, .queued)
  | .drain loop _ => s.Free loop
  | .message c | .endOfStream c _ =>
    (s.connections c).registration = .entered ∧ s.Free (s.connections c).eventLoop

def acceptConnection (s : ServerThreads) : ServerThreads :=
  let (loop, threadPool) := threadPoolGetLoop s.threadPool
  { s.setConnection s.accepted ⟨loop, none, none, .none⟩ with
    threadPool := threadPool
    accepted := s.accepted + 1
    making := some (s.accepted, .allocated) }

def complete (s : ServerThreads) (c : ℕ) : ServerThreads :=
  { s.setConnection c { s.connections c with request := some s.requests.length } with
    requests := s.requests ++ [c]
    making := some (c, .completed) }

def queueAdd (s : ServerThreads) (c : ℕ) (enters : ℕ → Bool) : ServerThreads :=
  let loop := (s.connections c).eventLoop
  let s :=
    { s.setConnection c { s.connections c with registration := .pending } with
      making := some (c, .queued) }
  if loop = mainLoop then s.drain loop enters else s

def finish (s : ServerThreads) (c : ℕ) : ServerThreads :=
  match s.data with
  | some data =>
    { s.setConnection c { s.connections c with data := some data } with making := none }
  | none => { s with making := none }

def close (s : ServerThreads) (c : ℕ) (enters : ℕ → Bool) : ServerThreads :=
  let s := s.drain (s.connections c).eventLoop enters
  s.setConnection c { s.connections c with registration := .removed, request := none }

def step (s : ServerThreads) : ThreadOp → Call ServerThreads
  | .accept => .returned s.acceptConnection
  | .completed =>
    match s.making with
    | some (c, _) => .returned (s.complete c)
    | none => .faulted .nullPointer
  | .queue enters =>
    match s.making with
    | some (c, _) => .returned (s.queueAdd c enters)
    | none => .faulted .nullPointer
  | .setData =>
    match s.making with
    | some (c, _) => .returned (s.finish c)
    | none => .faulted .nullPointer
  | .drain loop enters => .returned (s.drain loop enters)
  | .message _ => .returned s
  | .endOfStream c enters => .returned (s.close c enters)

/-! ## What a message finds -/

/-- The request of the connection is the one that was created for it. -/
def HasRequest (s : ServerThreads) (c : ℕ) : Prop :=
  ∃ request, (s.connections c).request = some request ∧ s.requests[request]? = some c

/-- The connection has the data of the server, and its request. -/
def Initialised (s : ServerThreads) (c : ℕ) : Prop :=
  (s.connections c).data = s.data ∧ s.HasRequest c

/-- A message is handled on a connection that is initialised. -/
def FindsInitialised (s : ServerThreads) (op : ThreadOp) : Prop :=
  ∀ c, op = .message c → s.Initialised c

/-- No message is handled on the connection that the acceptor is making. -/
def WaitsForAcceptor (s : ServerThreads) (op : ThreadOp) : Prop :=
  ∀ c, op = .message c → ∀ stage, s.making ≠ some (c, stage)

/-- What holds between two steps. -/
structure Consistent (server : ℕ) (s : ServerThreads) : Prop where
  data : s.data = some server
  /-- A number that has not been given to a connection is in no record. -/
  unused : ∀ c, s.accepted ≤ c → (s.connections c).registration = .none
  /-- A connection that is being made is in no record before its add request, and without data
  up to the end. -/
  making : ∀ c stage, s.making = some (c, stage) →
    c < s.accepted ∧ (s.connections c).data = none ∧
      (stage ≠ .queued → (s.connections c).registration = .none)
  completed : ∀ c, s.making = some (c, .completed) → s.HasRequest c
  made : ∀ c < s.accepted, (∀ stage, s.making ≠ some (c, stage)) →
    (s.connections c).data = s.data
  listed : ∀ c, (s.connections c).registration = .pending ∨
    (s.connections c).registration = .entered → s.HasRequest c

section Steps

variable {server : ℕ} {s s' : ServerThreads} {c : ℕ} {enters : ℕ → Bool}

lemma init_consistent (server threadNumber : ℕ) :
    (init server threadNumber).Consistent server where
  data := rfl
  unused _ _ := rfl
  making _ _ h := by cases h
  completed _ h := by cases h
  made _ hc _ := by cases hc
  listed _ h := by rcases h with h | h <;> cases h

@[simp] lemma setConnection_self (s : ServerThreads) (c : ℕ) (a : Accepted) :
    (s.setConnection c a).connections c = a :=
  Function.update_self _ _ _

lemma setConnection_of_ne (s : ServerThreads) {c c' : ℕ} (h : c' ≠ c) (a : Accepted) :
    (s.setConnection c a).connections c' = s.connections c' :=
  Function.update_of_ne h _ _

/-- A drain changes how far connections have got, and only that. -/
lemma drain_cases (s : ServerThreads) (loop : ℕ) (enters : ℕ → Bool) (c : ℕ) :
    (s.drain loop enters).connections c = s.connections c ∨
    (s.connections c).registration = .pending ∧
      ((s.drain loop enters).connections c = { s.connections c with registration := .entered } ∨
        (s.drain loop enters).connections c =
          { s.connections c with registration := .removed }) := by
  unfold drain
  dsimp only
  split_ifs with hpending hentered
  · exact .inr ⟨hpending.2, .inl rfl⟩
  · exact .inr ⟨hpending.2, .inr rfl⟩
  · exact .inl rfl

lemma Consistent.drain (h : s.Consistent server) (loop : ℕ) (enters : ℕ → Bool) :
    (s.drain loop enters).Consistent server := by
  have hdata : ∀ c, ((s.drain loop enters).connections c).data = (s.connections c).data := by
    intro c
    rcases s.drain_cases loop enters c with heq | ⟨-, heq | heq⟩ <;> rw [heq]
  have hrequest : ∀ c, s.HasRequest c → (s.drain loop enters).HasRequest c := by
    rintro c ⟨request, hrequest, hmade⟩
    refine ⟨request, ?_, hmade⟩
    rcases s.drain_cases loop enters c with heq | ⟨-, heq | heq⟩ <;> rw [heq] <;> exact hrequest
  refine ⟨h.data, fun c hc => ?_, fun c stage hc => ?_, fun c hc => hrequest c (h.completed c hc),
    fun c hc hnot => (hdata c).trans (h.made c hc hnot), fun c hc => hrequest c (h.listed c ?_)⟩
  · rcases s.drain_cases loop enters c with heq | ⟨hpending, -⟩
    · rw [heq]
      exact h.unused c hc
    · rw [h.unused c hc] at hpending
      cases hpending
  · obtain ⟨hlt, hnone, hearly⟩ := h.making c stage hc
    refine ⟨hlt, (hdata c).trans hnone, fun hstage => ?_⟩
    rcases s.drain_cases loop enters c with heq | ⟨hpending, -⟩
    · rw [heq]
      exact hearly hstage
    · rw [hearly hstage] at hpending
      cases hpending
  · rcases s.drain_cases loop enters c with heq | ⟨hpending, -⟩
    · rw [heq] at hc
      exact hc
    · exact .inl hpending

lemma Consistent.accept (h : s.Consistent server) (hfree : s.making = none) :
    s.acceptConnection.Consistent server := by
  have hold : ∀ c, c ≠ s.accepted → s.acceptConnection.connections c = s.connections c :=
    fun c hc => setConnection_of_ne s hc _
  have hnew : s.acceptConnection.connections s.accepted =
      ⟨(threadPoolGetLoop s.threadPool).1, none, none, .none⟩ := setConnection_self s _ _
  refine ⟨h.data, fun c hc => ?_, fun c stage hc => ?_, fun c hc => ?_, fun c hc hnot => ?_,
    fun c hc => ?_⟩
  · have hlt : s.accepted + 1 ≤ c := hc
    rw [hold c (by omega)]
    exact h.unused c (by omega)
  · cases hc
    rw [hnew]
    exact ⟨Nat.lt_succ_self _, rfl, fun _ => rfl⟩
  · cases hc
  · have hlt : c < s.accepted + 1 := hc
    by_cases heq : c = s.accepted
    · subst heq
      exact absurd rfl (hnot .allocated)
    · rw [hold c heq]
      exact h.made c (by omega) fun stage => by rw [hfree]; simp
  · by_cases heq : c = s.accepted
    · rw [heq, hnew] at hc
      rcases hc with hc | hc <;> cases hc
    · rw [hold c heq] at hc
      obtain ⟨request, hrequest, hmade⟩ := h.listed c hc
      exact ⟨request, by rw [hold c heq]; exact hrequest, hmade⟩

lemma Consistent.complete (h : s.Consistent server) (hc : s.making = some (c, .allocated)) :
    (s.complete c).Consistent server := by
  obtain ⟨hlt, hnone, hearly⟩ := h.making c .allocated hc
  have hold : ∀ c', c' ≠ c → (s.complete c).connections c' = s.connections c' :=
    fun c' hne => setConnection_of_ne s hne _
  have hself : (s.complete c).connections c =
      { s.connections c with request := some s.requests.length } := setConnection_self s c _
  have hregistration : ∀ c', ((s.complete c).connections c').registration =
      (s.connections c').registration := by
    intro c'
    by_cases heq : c' = c
    · rw [heq, hself]
    · rw [hold c' heq]
  have hrequest : ∀ c', s.HasRequest c' → c' ≠ c → (s.complete c).HasRequest c' := by
    rintro c' ⟨request, hrequest, hmade⟩ hne
    refine ⟨request, by rw [hold c' hne]; exact hrequest, ?_⟩
    have hin : request < s.requests.length := (List.getElem?_eq_some_iff.1 hmade).1
    show (s.requests ++ [c])[request]? = some c'
    rw [List.getElem?_append_left hin]
    exact hmade
  refine ⟨h.data, fun c' hc' => ?_, fun c' stage hc' => ?_, fun c' hc' => ?_,
    fun c' hc' hnot => ?_, fun c' hc' => ?_⟩
  · rw [hregistration]
    exact h.unused c' hc'
  · cases hc'
    rw [hself]
    exact ⟨hlt, hnone, fun _ => hearly (by simp)⟩
  · cases hc'
    exact ⟨s.requests.length, by rw [hself], List.getElem?_concat_length⟩
  · have hne : c' ≠ c := fun heq => hnot .completed (by rw [heq]; rfl)
    rw [hold c' hne]
    exact h.made c' hc' fun stage => by
      rw [hc]
      exact fun heq => hne (by cases heq; rfl)
  · rw [hregistration] at hc'
    have hne : c' ≠ c := by
      rintro rfl
      rw [hearly (by simp)] at hc'
      rcases hc' with hc' | hc' <;> cases hc'
    exact hrequest c' (h.listed c' hc') hne

lemma Consistent.queueAdd (h : s.Consistent server) (hc : s.making = some (c, .completed))
    (enters : ℕ → Bool) : (s.queueAdd c enters).Consistent server := by
  obtain ⟨hlt, hnone, -⟩ := h.making c .completed hc
  set s₁ : ServerThreads :=
    { s.setConnection c { s.connections c with registration := .pending } with
      making := some (c, .queued) }
  have hold : ∀ c', c' ≠ c → s₁.connections c' = s.connections c' :=
    fun c' hne => setConnection_of_ne s hne _
  have hself : s₁.connections c = { s.connections c with registration := .pending } :=
    setConnection_self s c _
  have hrequest : ∀ c', s.HasRequest c' → s₁.HasRequest c' := by
    rintro c' ⟨request, hrequest, hmade⟩
    refine ⟨request, ?_, hmade⟩
    by_cases heq : c' = c
    · rw [heq, hself]
      rw [heq] at hrequest
      exact hrequest
    · rw [hold c' heq]
      exact hrequest
  have hqueued : s₁.Consistent server := by
    refine ⟨h.data, fun c' hc' => ?_, fun c' stage hc' => ?_, fun c' hc' => ?_,
      fun c' hc' hnot => ?_, fun c' hc' => ?_⟩
    · have hle : s.accepted ≤ c' := hc'
      rw [hold c' (by omega)]
      exact h.unused c' hc'
    · cases hc'
      rw [hself]
      exact ⟨hlt, hnone, fun hstage => absurd rfl hstage⟩
    · cases hc'
    · have hne : c' ≠ c := fun heq => hnot .queued (by rw [heq])
      rw [hold c' hne]
      exact h.made c' hc' fun stage => by
        rw [hc]
        exact fun heq => hne (by cases heq; rfl)
    · by_cases heq : c' = c
      · rw [heq]
        exact hrequest c (h.completed c hc)
      · rw [hold c' heq] at hc'
        exact hrequest c' (h.listed c' hc')
  unfold ServerThreads.queueAdd
  dsimp only
  split_ifs
  · exact hqueued.drain _ enters
  · exact hqueued

lemma Consistent.finish (h : s.Consistent server) (hc : s.making = some (c, .queued)) :
    (s.finish c).Consistent server := by
  obtain ⟨hlt, -, -⟩ := h.making c .queued hc
  have hfinish : s.finish c =
      { s.setConnection c { s.connections c with data := some server } with making := none } := by
    rw [ServerThreads.finish, h.data]
  have hold : ∀ c', c' ≠ c → (s.finish c).connections c' = s.connections c' := by
    intro c' hne
    rw [hfinish]
    exact setConnection_of_ne s hne _
  have hself : (s.finish c).connections c = { s.connections c with data := some server } := by
    rw [hfinish]
    exact setConnection_self s c _
  have hmaking : (s.finish c).making = none := by rw [hfinish]
  have hdata : (s.finish c).data = some server := by
    rw [hfinish]
    exact h.data
  have haccepted : (s.finish c).accepted = s.accepted := by
    rw [hfinish]
    rfl
  have hrequests : (s.finish c).requests = s.requests := by
    rw [hfinish]
    rfl
  have hrest : ∀ c', ((s.finish c).connections c').registration =
      (s.connections c').registration ∧
      ((s.finish c).connections c').request = (s.connections c').request := by
    intro c'
    by_cases heq : c' = c
    · rw [heq, hself]
      exact ⟨rfl, rfl⟩
    · rw [hold c' heq]
      exact ⟨rfl, rfl⟩
  refine ⟨hdata, fun c' hc' => ?_, fun c' stage hc' => ?_, fun c' hc' => ?_,
    fun c' hc' _ => ?_, fun c' hc' => ?_⟩
  · rw [(hrest c').1]
    exact h.unused c' (haccepted ▸ hc')
  · rw [hmaking] at hc'
    cases hc'
  · rw [hmaking] at hc'
    cases hc'
  · rw [hdata]
    by_cases heq : c' = c
    · rw [heq, hself]
    · rw [hold c' heq, ← h.data]
      exact h.made c' (haccepted ▸ hc') fun stage => by
        rw [hc]
        exact fun hsome => heq (by cases hsome; rfl)
  · rw [(hrest c').1] at hc'
    obtain ⟨request, hrequest, hmade⟩ := h.listed c' hc'
    exact ⟨request, by rw [(hrest c').2]; exact hrequest, by rw [hrequests]; exact hmade⟩

lemma Consistent.close (h : s.Consistent server)
    (hentered : (s.connections c).registration = .entered) (enters : ℕ → Bool) :
    (s.close c enters).Consistent server := by
  have hdrained : (s.drain (s.connections c).eventLoop enters).Consistent server := h.drain _ _
  set s₁ : ServerThreads := s.drain (s.connections c).eventLoop enters
  have hold : ∀ c', c' ≠ c → (s.close c enters).connections c' = s₁.connections c' :=
    fun c' hne => setConnection_of_ne s₁ hne _
  have hself : (s.close c enters).connections c =
      { s₁.connections c with registration := .removed, request := none } :=
    setConnection_self s₁ c _
  have hrequest : ∀ c', c' ≠ c → s₁.HasRequest c' → (s.close c enters).HasRequest c' := by
    rintro c' hne ⟨request, hrequest, hmade⟩
    exact ⟨request, by rw [hold c' hne]; exact hrequest, hmade⟩
  refine ⟨hdrained.data, fun c' hc' => ?_, fun c' stage hc' => ?_, fun c' hc' => ?_,
    fun c' hc' hnot => ?_, fun c' hc' => ?_⟩
  · have hne : c' ≠ c := by
      rintro rfl
      rw [h.unused c' hc'] at hentered
      cases hentered
    rw [hold c' hne]
    exact hdrained.unused c' hc'
  · obtain ⟨hlt, hnone, hearly⟩ := hdrained.making c' stage hc'
    by_cases heq : c' = c
    · subst heq
      rw [hself]
      -- an entered connection has been queued
      have hstage : stage = .queued := by
        by_contra hstage
        rw [(h.making c' stage hc').2.2 hstage] at hentered
        cases hentered
      exact ⟨hlt, hnone, fun hne => absurd hstage hne⟩
    · rw [hold c' heq]
      exact ⟨hlt, hnone, hearly⟩
  · have hne : c' ≠ c := by
      rintro rfl
      rw [(h.making c' .completed hc').2.2 (by simp)] at hentered
      cases hentered
    exact hrequest c' hne (hdrained.completed c' hc')
  · by_cases heq : c' = c
    · subst heq
      rw [hself]
      exact hdrained.made c' hc' hnot
    · rw [hold c' heq]
      exact hdrained.made c' hc' hnot
  · by_cases heq : c' = c
    · rw [heq, hself] at hc'
      rcases hc' with hc' | hc' <;> cases hc'
    · rw [hold c' heq] at hc'
      exact hrequest c' heq (hdrained.listed c' hc')

/-- Whatever the threads do, in turn, the records stay consistent. -/
lemma Consistent.step (h : s.Consistent server) {op : ThreadOp} (hp : s.Possible op)
    (hs : s.step op = .returned s') : s'.Consistent server := by
  cases op with
  | accept =>
    cases hs
    exact h.accept hp
  | completed =>
    obtain ⟨c, hc⟩ := hp
    rw [ServerThreads.step, hc] at hs
    cases hs
    exact h.complete hc
  | queue enters =>
    obtain ⟨c, hc⟩ := hp
    rw [ServerThreads.step, hc] at hs
    cases hs
    exact h.queueAdd hc enters
  | setData =>
    obtain ⟨c, hc⟩ := hp
    rw [ServerThreads.step, hc] at hs
    cases hs
    exact h.finish hc
  | drain loop enters =>
    cases hs
    exact h.drain loop enters
  | message c =>
    cases hs
    exact h
  | endOfStream c enters =>
    cases hs
    exact h.close hp.1 enters

/-- A connection in the channel map is initialised exactly if the acceptor is done with it. -/
lemma Consistent.initialised_iff_not_making (h : s.Consistent server)
    (hentered : (s.connections c).registration = .entered) :
    s.Initialised c ↔ ∀ stage, s.making ≠ some (c, stage) := by
  constructor
  · rintro ⟨hdata, -⟩ stage hmaking
    rw [(h.making c stage hmaking).2.1, h.data] at hdata
    cases hdata
  · intro hnot
    have hlt : c < s.accepted := by
      by_contra hge
      rw [h.unused c (by omega)] at hentered
      cases hentered
    exact ⟨h.made c hlt hnot, h.listed c (.inr hentered)⟩

lemma Consistent.finds_iff_waits (h : s.Consistent server) {op : ThreadOp} (hp : s.Possible op) :
    s.FindsInitialised op ↔ s.WaitsForAcceptor op := by
  constructor
  · rintro hfinds c rfl
    exact (h.initialised_iff_not_making hp.1).1 (hfinds c rfl)
  · rintro hwaits c rfl
    exact (h.initialised_iff_not_making hp.1).2 (hwaits c rfl)

/-! ### Without worker threads -/

/-- Every connection belongs to the main loop. -/
def SingleThreaded (s : ServerThreads) : Prop :=
  s.threadPool.threadNumber = 0 ∧ ∀ c, (s.connections c).eventLoop = mainLoop

lemma SingleThreaded.setConnection (h : s.SingleThreaded) {a : Accepted}
    (ha : a.eventLoop = mainLoop) : (s.setConnection c a).SingleThreaded := by
  refine ⟨h.1, fun c' => ?_⟩
  by_cases heq : c' = c
  · rw [heq, setConnection_self]
    exact ha
  · rw [setConnection_of_ne s heq]
    exact h.2 c'

lemma SingleThreaded.drain (h : s.SingleThreaded) (loop : ℕ) (enters : ℕ → Bool) :
    (s.drain loop enters).SingleThreaded := by
  refine ⟨h.1, fun c => ?_⟩
  rcases s.drain_cases loop enters c with heq | ⟨-, heq | heq⟩ <;> rw [heq] <;> exact h.2 c

lemma SingleThreaded.accept (h : s.SingleThreaded) : s.acceptConnection.SingleThreaded := by
  have hloop : threadPoolGetLoop s.threadPool = (mainLoop, s.threadPool) := by
    rw [threadPoolGetLoop, if_neg (by rw [h.1]; exact lt_irrefl 0)]
  have hset := h.setConnection (c := s.accepted) (a := ⟨mainLoop, none, none, .none⟩) rfl
  unfold ServerThreads.acceptConnection
  rw [hloop]
  exact ⟨hset.1, hset.2⟩

lemma SingleThreaded.step (h : s.SingleThreaded) {op : ThreadOp}
    (hs : s.step op = .returned s') : s'.SingleThreaded := by
  have hset : ∀ c (a : Accepted), a.eventLoop = (s.connections c).eventLoop →
      (s.setConnection c a).SingleThreaded :=
    fun c a ha => h.setConnection (ha.trans (h.2 c))
  cases op with
  | accept =>
    cases hs
    exact h.accept
  | completed =>
    rw [ServerThreads.step] at hs
    split at hs <;> cases hs
    exact hset _ _ rfl
  | queue enters =>
    rw [ServerThreads.step] at hs
    split at hs <;> cases hs
    rename_i c _ _
    have hqueued := hset c { s.connections c with registration := .pending } rfl
    unfold ServerThreads.queueAdd
    dsimp only
    split_ifs
    · exact SingleThreaded.drain ⟨hqueued.1, hqueued.2⟩ _ enters
    · exact ⟨hqueued.1, hqueued.2⟩
  | setData =>
    rw [ServerThreads.step] at hs
    split at hs <;> cases hs
    rename_i c _ _
    unfold ServerThreads.finish
    split
    · rename_i server _
      have hfinished := hset c { s.connections c with data := some server } rfl
      exact ⟨hfinished.1, hfinished.2⟩
    · exact ⟨h.1, h.2⟩
  | drain loop enters =>
    cases hs
    exact h.drain loop enters
  | message c =>
    cases hs
    exact h
  | endOfStream c enters =>
    cases hs
    have hdrained := h.drain (s.connections c).eventLoop enters
    exact hdrained.setConnection (hdrained.2 c)

end Steps

/-! ## Whole runs -/

/-- Every message finds its connection initialised exactly if none is handled on a connection
that the acceptor is still making. -/
theorem initialised_iff (server threadNumber : ℕ) (ops : List ThreadOp)
    (hp : Outcome.Throughout step Possible (init server threadNumber) ops) :
    Outcome.Throughout step FindsInitialised (init server threadNumber) ops ↔
      Outcome.Throughout step WaitsForAcceptor (init server threadNumber) ops := by
  have hstep : ∀ (q : ServerThreads → ThreadOp → Prop) (s : ServerThreads) (op : ThreadOp)
      (s' : ServerThreads), s.Consistent server → s.Possible op ∧ q s op →
      s.step op = .returned s' → s'.Consistent server :=
    fun _ _ _ _ hs hop hs' => hs.step hop.1 hs'
  have hinit := init_consistent server threadNumber
  constructor
  · intro hfinds
    exact (hp.and hfinds).imp (Consistent server)
      (fun s op hs hop => (hs.finds_iff_waits hop.1).1 hop.2) (hstep _) hinit
  · intro hwaits
    exact (hp.and hwaits).imp (Consistent server)
      (fun s op hs hop => (hs.finds_iff_waits hop.1).2 hop.2) (hstep _) hinit

/-- One worker thread, and a message that comes when the acceptor is done. -/
theorem initialised_iff_oneThread :
    Outcome.Throughout step FindsInitialised (init 7 1)
        [.accept, .completed, .queue fun _ => true, .setData, .drain 1 fun _ => true,
          .message 0] ↔
      Outcome.Throughout step WaitsForAcceptor (init 7 1)
        [.accept, .completed, .queue fun _ => true, .setData, .drain 1 fun _ => true,
          .message 0] := by
  refine initialised_iff 7 1 _ ?_
  refine (Outcome.throughout_cons_returned rfl _).2 ⟨rfl, ?_⟩
  refine (Outcome.throughout_cons_returned rfl _).2 ⟨⟨0, rfl⟩, ?_⟩
  refine (Outcome.throughout_cons_returned rfl _).2 ⟨⟨0, rfl⟩, ?_⟩
  refine (Outcome.throughout_cons_returned rfl _).2 ⟨⟨0, rfl⟩, ?_⟩
  refine (Outcome.throughout_cons_returned rfl _).2 ⟨fun _ => rfl, ?_⟩
  exact (Outcome.throughout_cons_returned rfl _).2 ⟨⟨rfl, fun _ => rfl⟩, trivial⟩

/-- The worker thread drains its list and dispatches a read event before the acceptor has
returned from `tcp_connection_new`. -/
theorem not_initialised_early_message :
    Outcome.Throughout step Possible (init 7 1)
        [.accept, .completed, .queue fun _ => true, .drain 1 fun _ => true, .message 0] ∧
      ¬ Outcome.Throughout step FindsInitialised (init 7 1)
        [.accept, .completed, .queue fun _ => true, .drain 1 fun _ => true, .message 0] := by
  constructor
  · refine (Outcome.throughout_cons_returned rfl _).2 ⟨rfl, ?_⟩
    refine (Outcome.throughout_cons_returned rfl _).2 ⟨⟨0, rfl⟩, ?_⟩
    refine (Outcome.throughout_cons_returned rfl _).2 ⟨⟨0, rfl⟩, ?_⟩
    refine (Outcome.throughout_cons_returned rfl _).2 ⟨(by rintro ⟨⟩), ?_⟩
    exact (Outcome.throughout_cons_returned rfl _).2 ⟨⟨rfl, by rintro ⟨⟩⟩, trivial⟩
  · intro h
    obtain ⟨hmessage, -⟩ := (((h.2 _ rfl).2 _ rfl).2 _ rfl).2 _ rfl
    obtain ⟨hdata, -⟩ := hmessage 0 rfl
    cases hdata

/-- Without worker threads the main loop handles no event before the acceptor has returned. -/
theorem initialised_of_no_threads (server : ℕ) (ops : List ThreadOp)
    (hp : Outcome.Throughout step Possible (init server 0) ops) :
    Outcome.Throughout step FindsInitialised (init server 0) ops := by
  have hinit : (init server 0).Consistent server ∧ (init server 0).SingleThreaded :=
    ⟨init_consistent server 0, rfl, fun _ => rfl⟩
  refine hp.imp (fun s => s.Consistent server ∧ s.SingleThreaded) ?_ ?_ hinit
  · rintro s op ⟨hs, hsingle⟩ hop
    refine (hs.finds_iff_waits hop).2 ?_
    rintro c rfl stage hmaking
    rw [hop.2 (hsingle.2 c)] at hmaking
    cases hmaking
  · rintro s op s' ⟨hs, hsingle⟩ hop hs'
    exact ⟨hs.step hop hs', hsingle.step hs'⟩

end ServerThreads

end Yolanda
