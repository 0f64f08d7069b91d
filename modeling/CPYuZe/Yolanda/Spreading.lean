import CPYuZe.Library.Rotation
import CPYuZe.Yolanda.Names
import CPYuZe.Yolanda.Publication
import CPYuZe.Yolanda.TcpConnection

/-!
# Spreading connections over the loops

`handle_connection_established` calls `accept` once, takes the next loop of the thread pool and
makes a connection for it.  It does not look at the descriptor: a failed `accept` has its turn in
the rotation and becomes a connection with the descriptor `-1`
(`handleConnectionEstablished_cases`).

A run is a list of calls, each with what `accept` and the allocator answer in it (`AcceptCall`).
The thread pool is a `Rotation` whatever `accept` answers (`Rotates.step`), so it is the failed
calls alone that come between the accepted connections and their loops.  Connections are
`Spread` and failed calls without effect exactly if every call of `accept` succeeds, with a
descriptor that the name of the connection has room for (`distributes_iff`).

`make_nonblocking` is a call of `fcntl` whose result nobody looks at, and the address of the
client is only received; both are left out.
-/

namespace Yolanda

/-- A `tcp_connection` together with the arguments it was made with. -/
structure NewConnection where
  connectedFd : ℤ
  eventLoop : ℕ
  name : List UInt8
  world : World

/-- `struct TCPserver`, with the connections it has made. -/
structure TcpServer where
  threadPool : ThreadPool
  connectionCompletedCallBack : Option (TcpConnection → TcpConnection)
  data : Option HttpServer
  connections : List NewConnection

/-- One call of `handle_connection_established`: what `accept` answers, and what the allocations
hold. -/
structure AcceptCall where
  accept : Except Errno ℕ
  freshName : ℕ → UInt8
  freshInput : ℕ → UInt8
  freshOutput : ℕ → UInt8
  heap : Heap

/-- The `int` that `accept` returns. -/
def AcceptCall.connectedFd (a : AcceptCall) : ℤ :=
  match a.accept with
  | .ok fd => fd
  | .error _ => -1

/-- The descriptor of a call that succeeds. -/
def AcceptCall.accepted (a : AcceptCall) : Option ℤ :=
  match a.accept with
  | .ok fd => some fd
  | .error _ => none

/-- `tcp_connection_new` and what the server stores in the connection; `name` has been written. -/
def TcpServer.newConnection (s : TcpServer) (a : AcceptCall) (eventLoop : ℕ) (name : List UInt8) :
    NewConnection :=
  let world := tcpConnectionNew a.connectedFd eventLoop s.connectionCompletedCallBack
    s.connections.length a.freshInput a.freshOutput a.heap
  let world :=
    match s.data with
    | some data => { world with conn := { world.conn with data := some data } }
    | none => world
  ⟨a.connectedFd, eventLoop, name, world⟩

def handleConnectionEstablished (s : TcpServer) (a : AcceptCall) : Call TcpServer := do
  let (eventLoop, threadPool) := threadPoolGetLoop s.threadPool
  let name ← connectionName a.freshName a.connectedFd
  pure { s with
    threadPool := threadPool
    connections := s.connections ++ [s.newConnection a eventLoop name] }

namespace TcpServer

/-- A server behind `tcp_server_start`, with `n` worker threads. -/
def start (n : ℕ) (callback : Option (TcpConnection → TcpConnection))
    (data : Option HttpServer) : TcpServer :=
  ⟨⟨n, 0⟩, callback, data, []⟩

/-- How many connections a loop has been given. -/
def given (s : TcpServer) (loop : ℕ) : ℕ := (s.connections.map (·.eventLoop)).count loop

/-- The connections are those with these descriptors, one after the other on loop after loop; the
loop of the worker thread `i` is `i + 1`. -/
structure Spread (n : ℕ) (fds : List ℤ) (s : TcpServer) : Prop where
  created : s.connections.map (·.connectedFd) = fds
  loops : ∀ k c, s.connections[k]? = some c → c.eventLoop = k % n + 1
  balanced : ∀ i < n, ∀ j < n, s.given (i + 1) ≤ s.given (j + 1) + 1

end TcpServer

/-- `accept` returns `-1`, and then nothing happens. -/
def FailureKeeps (s : TcpServer) (a : AcceptCall) : Prop :=
  ∀ e, a.accept = .error e → handleConnectionEstablished s a = .returned s

/-- What a run of calls of `handle_connection_established` should come to. -/
structure Distributes (n : ℕ) (s : TcpServer) (calls : List AcceptCall) : Prop where
  failures : Outcome.Throughout handleConnectionEstablished FailureKeeps s calls
  accepted : ∃ s', Outcome.run handleConnectionEstablished s calls = .returned s' ∧
    s'.Spread n (calls.filterMap AcceptCall.accepted)

/-- `accept` succeeds with a descriptor that has at most four digits. -/
def AcceptCall.Named (a : AcceptCall) : Prop := ∃ fd, a.accept = .ok fd ∧ fd < 10000

/-! ## One call -/

section Call

variable {n : ℕ} {s s' : TcpServer}

/-- Whatever `accept` answers, the next loop is given a connection, unless the name of that
connection is too long. -/
lemma handleConnectionEstablished_cases (s : TcpServer) (a : AcceptCall) :
    (a.connectedFd < 10000 ∧ ∃ name, handleConnectionEstablished s a = .returned
      { s with
        threadPool := (threadPoolGetLoop s.threadPool).2
        connections := s.connections ++
          [s.newConnection a (threadPoolGetLoop s.threadPool).1 name] }) ∨
    (10000 ≤ a.connectedFd ∧ handleConnectionEstablished s a = .faulted .outOfBounds) := by
  unfold handleConnectionEstablished
  rcases lt_or_ge a.connectedFd 10000 with hlt | hge
  · have hlow : -1000 < a.connectedFd := by
      unfold AcceptCall.connectedFd
      split <;> omega
    obtain ⟨name, hname, -⟩ :=
      (connectionName_holds_iff a.freshName a.connectedFd).2 ⟨hlow, hlt⟩
    refine .inl ⟨hlt, name, ?_⟩
    rw [hname]
    rfl
  · refine .inr ⟨hge, ?_⟩
    rw [connectionName_faults a.freshName hge]
    rfl

lemma handleConnectionEstablished_returned {a : AcceptCall}
    (h : handleConnectionEstablished s a = .returned s') :
    a.connectedFd < 10000 ∧ s'.threadPool = (threadPoolGetLoop s.threadPool).2 ∧
      ∃ name, s'.connections = s.connections ++
        [s.newConnection a (threadPoolGetLoop s.threadPool).1 name] := by
  obtain ⟨hlt, name, hreturned⟩ | ⟨-, hfaulted⟩ := handleConnectionEstablished_cases s a
  · obtain rfl := Outcome.returned.inj (hreturned.symm.trans h)
    exact ⟨hlt, rfl, name, rfl⟩
  · rw [hfaulted] at h
    cases h

lemma newConnection_trace
    (hcallback : ∀ f, s.connectionCompletedCallBack = some f → ∀ c, (f c).eventLoop = c.eventLoop)
    (a : AcceptCall) (loop : ℕ) (name : List UInt8) :
    ∃ channel, (s.newConnection a loop name).world.trace = [.add loop channel] := by
  have hnew : ∃ channel, (tcpConnectionNew a.connectedFd loop s.connectionCompletedCallBack
      s.connections.length a.freshInput a.freshOutput a.heap).trace = [.add loop channel] := by
    unfold tcpConnectionNew
    cases hf : s.connectionCompletedCallBack with
    | none => exact ⟨_, rfl⟩
    | some f =>
      refine ⟨_, congrArg (fun loop => [Event.add loop _]) (hcallback f hf _)⟩
  obtain ⟨channel, hchannel⟩ := hnew
  refine ⟨channel, ?_⟩
  rw [TcpServer.newConnection]
  cases s.data with
  | none => exact hchannel
  | some data => exact hchannel

/-- A failed `accept` never leaves the server as it is. -/
lemma not_failureKeeps (s : TcpServer) {a : AcceptCall} {e : Errno} (he : a.accept = .error e) :
    ¬ FailureKeeps s a := by
  intro hkeeps
  obtain ⟨-, -, name, hconnections⟩ := handleConnectionEstablished_returned (hkeeps e he)
  have hlength := congrArg List.length hconnections
  simp at hlength

lemma failureKeeps_of_named (s : TcpServer) {a : AcceptCall} (h : a.Named) : FailureKeeps s a := by
  intro e he
  obtain ⟨fd, hok, -⟩ := h
  rw [hok] at he
  cases he

/-! ## The rotation -/

/-- The loops of the connections are the choices of the rotation. -/
structure Rotates (s : TcpServer) (r : Rotation n) : Prop where
  threadPool : s.threadPool = ⟨n, r.position⟩
  connections : s.connections.map (·.eventLoop) = r.chosen.map (· + 1)

lemma start_rotates (n : ℕ) (callback : Option (TcpConnection → TcpConnection))
    (data : Option HttpServer) : Rotates (TcpServer.start n callback data) (Rotation.init n) :=
  ⟨rfl, rfl⟩

lemma threadPoolGetLoop_eq (hn : 0 < n) (r : Rotation n) :
    threadPoolGetLoop ⟨n, r.position⟩ = (r.position + 1, ⟨n, (r.choose hn).position⟩) :=
  if_pos hn

/-- Every call is a choice of the rotation. -/
lemma Rotates.step (hn : 0 < n) {r : Rotation n} (h : Rotates s r) {a : AcceptCall}
    (hstep : handleConnectionEstablished s a = .returned s') : Rotates s' (r.choose hn) := by
  obtain ⟨-, hpool, name, hconnections⟩ := handleConnectionEstablished_returned hstep
  rw [h.threadPool, threadPoolGetLoop_eq hn] at hpool hconnections
  refine ⟨hpool, ?_⟩
  rw [hconnections, List.map_append, h.connections]
  show _ = (r.chosen ++ [r.position]).map (· + 1)
  rw [List.map_append]
  rfl

lemma Rotates.given_eq {r : Rotation n} (h : Rotates s r) (i : ℕ) :
    s.given (i + 1) = r.chosen.count i := by
  rw [TcpServer.given, h.connections]
  exact List.count_map_of_injective r.chosen _ (add_left_injective 1) i

lemma Rotates.spread {r : Rotation n} (h : Rotates s r) :
    s.Spread n (s.connections.map (·.connectedFd)) := by
  refine ⟨rfl, fun k c hc => ?_, fun i hi j hj => ?_⟩
  · have hloop : (s.connections.map (·.eventLoop))[k]? = some c.eventLoop := by
      rw [List.getElem?_map, hc]
      rfl
    rw [h.connections, List.getElem?_map, Option.map_eq_some_iff] at hloop
    obtain ⟨p, hp, heq⟩ := hloop
    rw [← heq, r.getElem?_chosen hp]
  · rw [h.given_eq, h.given_eq]
    exact r.count_le_succ hi hj

end Call

/-! ## Runs -/

section Runs

variable {n : ℕ} {s s' : TcpServer} {calls : List AcceptCall}

lemma run_connectedFd (h : Outcome.run handleConnectionEstablished s calls = .returned s') :
    s'.connections.map (·.connectedFd) =
      s.connections.map (·.connectedFd) ++ calls.map AcceptCall.connectedFd := by
  induction calls generalizing s with
  | nil =>
    obtain rfl : s = s' := Outcome.returned.inj h
    simp
  | cons a calls ih =>
    obtain ⟨s₁, hstep, hrest⟩ := Outcome.run_cons_eq_returned.1 h
    obtain ⟨-, -, name, hconnections⟩ := handleConnectionEstablished_returned hstep
    rw [ih hrest, hconnections, List.map_append, List.append_assoc]
    rfl

/-- It is the calls, whether they succeed or not, that are spread over the loops. -/
lemma run_spread (hn : 0 < n) {callback : Option (TcpConnection → TcpConnection)}
    {data : Option HttpServer}
    (h : Outcome.run handleConnectionEstablished (TcpServer.start n callback data) calls =
      .returned s') :
    s'.Spread n (calls.map AcceptCall.connectedFd) := by
  obtain ⟨r, hr⟩ : ∃ r : Rotation n, Rotates s' r :=
    Outcome.run_preserves (fun s => ∃ r : Rotation n, Rotates s r)
      (fun _ _ _ ⟨r, hr⟩ hstep => ⟨r.choose hn, hr.step hn hstep⟩)
      ⟨_, start_rotates n callback data⟩ h
  have hfds := run_connectedFd h
  have hspread := hr.spread
  rw [hfds] at hspread
  exact hspread

lemma run_returned_of_named (s : TcpServer) (h : ∀ a ∈ calls, a.Named) :
    ∃ s', Outcome.run handleConnectionEstablished s calls = .returned s' := by
  induction calls generalizing s with
  | nil => exact ⟨s, rfl⟩
  | cons a calls ih =>
    obtain ⟨fd, hok, hlt⟩ := h a List.mem_cons_self
    have hfd : a.connectedFd = fd := by rw [AcceptCall.connectedFd, hok]
    obtain ⟨-, name, hreturned⟩ | ⟨hge, -⟩ := handleConnectionEstablished_cases s a
    · rw [Outcome.run_cons_returned hreturned]
      exact ih _ fun a' ha' => h a' (List.mem_cons_of_mem a ha')
    · omega

/-- A run in which failures keep the server has no failures, and if it comes to its end every
name has fitted. -/
lemma named_of_run (hkeeps : Outcome.Throughout handleConnectionEstablished FailureKeeps s calls)
    (h : Outcome.run handleConnectionEstablished s calls = .returned s') :
    ∀ a ∈ calls, a.Named := by
  induction calls generalizing s with
  | nil => simp
  | cons a calls ih =>
    obtain ⟨s₁, hstep, hrest⟩ := Outcome.run_cons_eq_returned.1 h
    intro a' ha'
    rcases List.mem_cons.1 ha' with rfl | ha'
    · obtain ⟨hlt, -⟩ := handleConnectionEstablished_returned hstep
      cases haccept : a'.accept with
      | error e => exact absurd hkeeps.1 (not_failureKeeps s haccept)
      | ok fd =>
        have hfd : a'.connectedFd = fd := by rw [AcceptCall.connectedFd, haccept]
        exact ⟨fd, haccept, by omega⟩
    · exact ih (hkeeps.2 s₁ hstep) hrest a' ha'

lemma map_connectedFd_of_named (h : ∀ a ∈ calls, a.Named) :
    calls.map AcceptCall.connectedFd = calls.filterMap AcceptCall.accepted := by
  rw [← List.filterMap_eq_map]
  apply List.filterMap_congr
  intro a ha
  obtain ⟨fd, hok, -⟩ := h a ha
  simp [AcceptCall.connectedFd, AcceptCall.accepted, hok]

/-- Accepted connections are spread in turn, and failed calls are without effect, exactly if no
call of `accept` fails and every descriptor has a name that fits. -/
theorem distributes_iff (hn : 0 < n) (callback : Option (TcpConnection → TcpConnection))
    (data : Option HttpServer) (calls : List AcceptCall) :
    Distributes n (TcpServer.start n callback data) calls ↔ ∀ a ∈ calls, a.Named := by
  constructor
  · rintro ⟨hkeeps, s', hrun, -⟩
    exact named_of_run hkeeps hrun
  · intro hnamed
    obtain ⟨s', hrun⟩ := run_returned_of_named (TcpServer.start n callback data) hnamed
    refine ⟨?_, s', hrun, ?_⟩
    · exact Outcome.throughout_of_forall fun a ha s => failureKeeps_of_named s (hnamed a ha)
    · rw [← map_connectedFd_of_named hnamed]
      exact run_spread hn hrun

/-- The add request of every connection, also of one without a descriptor, goes to the loop it was
made with, as long as the callback leaves that loop alone. -/
lemma run_requests {callback : Option (TcpConnection → TcpConnection)}
    (hcallback : ∀ f, callback = some f → ∀ c, (f c).eventLoop = c.eventLoop)
    {data : Option HttpServer}
    (h : Outcome.run handleConnectionEstablished (TcpServer.start n callback data) calls =
      .returned s') :
    ∀ c ∈ s'.connections, ∃ channel, c.world.trace = [.add c.eventLoop channel] := by
  refine (Outcome.run_preserves (fun s => s.connectionCompletedCallBack = callback ∧
    ∀ c ∈ s.connections, ∃ channel, c.world.trace = [.add c.eventLoop channel])
    ?_ ⟨rfl, by simp [TcpServer.start]⟩ h).2
  rintro s a s' ⟨hsame, hs⟩ hstep
  obtain ⟨-, name, hreturned⟩ | ⟨-, hfaulted⟩ := handleConnectionEstablished_cases s a
  · obtain rfl := Outcome.returned.inj (hreturned.symm.trans hstep)
    refine ⟨hsame, fun c hc => ?_⟩
    rcases List.mem_append.1 hc with hc | hc
    · exact hs c hc
    · obtain rfl := List.mem_singleton.1 hc
      exact newConnection_trace (hsame ▸ hcallback) a _ name
  · rw [hfaulted] at hstep
    cases hstep

/-- Two connections on two loops. -/
theorem distributes_iff_two :
    0 < 2 ∧ Distributes 2 (TcpServer.start 2 none none)
      ([5, 6].map fun fd =>
        ⟨.ok fd, fun _ => 0, fun _ => 0, fun _ => 0, ⟨fun _ _ => 0, 0, 0⟩⟩) := by
  refine ⟨by norm_num, ?_⟩
  apply (distributes_iff (by norm_num) none none _).2
  intro a ha
  obtain ⟨fd, hfd, rfl⟩ := List.mem_map.1 ha
  refine ⟨fd, rfl, ?_⟩
  simp at hfd
  omega

/-- Behind a failed `accept` the first connection accepted is the second one made. -/
theorem not_distributes_after_failure :
    ∃ s, Outcome.run handleConnectionEstablished (TcpServer.start 2 none none)
        ([.error .EWOULDBLOCK, .ok 5].map fun accept =>
          ⟨accept, fun _ => 0, fun _ => 0, fun _ => 0, ⟨fun _ _ => 0, 0, 0⟩⟩) = .returned s ∧
      s.connections.map (fun c => (c.connectedFd, c.eventLoop)) = [(-1, 1), (5, 2)] ∧
      ¬ Distributes 2 (TcpServer.start 2 none none)
        ([.error .EWOULDBLOCK, .ok 5].map fun accept =>
          ⟨accept, fun _ => 0, fun _ => 0, fun _ => 0, ⟨fun _ _ => 0, 0, 0⟩⟩) := by
  refine ⟨_, rfl, rfl, ?_⟩
  rintro ⟨hkeeps, -⟩
  exact not_failureKeeps _ rfl hkeeps.1

end Runs

end Yolanda
