import CPYuZe.Yolanda.Application

/-!
# Shutting down

`tcp_connection_shutdown` closes the write side of the socket at once.  It does not look at the
output buffer, and there is no state of a connection that would put the shutdown off until a
later write event has emptied it.  What has been passed is delivered all the same
(`shutdown_delivers`): the output buffer of a connection that has come this far is empty.  Bytes
are put into it only by a send whose `write()` has left some of the data, and that send then takes
the connection for an event loop and does not come back, so that no shutdown follows it.
-/

namespace Yolanda

/-- Whenever the write side was shut down nothing was waiting, and the socket had taken exactly
what had been passed. -/
def Delivered (trace : List Event) : Prop :=
  ∀ before unsent after, trace = before ++ .shutdownWr unsent :: after →
    unsent = [] ∧ accepted before = passed before

lemma delivered_append {t : List Event} {e : Event} :
    Delivered (t ++ [e]) ↔ Delivered t ∧
      ∀ unsent, e = .shutdownWr unsent → unsent = [] ∧ accepted t = passed t := by
  constructor
  · intro h
    refine ⟨fun before unsent after ht => ?_, fun unsent he => ?_⟩
    · exact h before unsent (after ++ [e]) (by rw [ht, List.append_assoc, List.cons_append])
    · exact h t unsent [] (by rw [he])
  · rintro ⟨ht, he⟩ before unsent after heq
    rcases List.eq_nil_or_concat after with rfl | ⟨after, e', rfl⟩
    · obtain ⟨rfl, hlast⟩ := List.append_inj' heq rfl
      exact he unsent (List.singleton_inj.1 hlast)
    · rw [List.concat_eq_append, ← List.cons_append, ← List.append_assoc] at heq
      exact ht before unsent after (List.append_inj' heq rfl).1

/-- The call leaves a trace with which everything has been delivered, if it comes back.  Nothing
in a call can go wrong behind a shutdown, so no shutdown is made in a call that does not. -/
def KeepsDelivered (w : World) (c : ConnectionCall) : Prop :=
  ∀ w', connectionStep w c = .returned w' → Delivered w'.trace

/-! ## What has been taken and what has been passed -/

/-- Nothing waits, what has been passed has been taken, and so it was at every shutdown. -/
structure Accounted (w : World) : Prop where
  unqueued : Unqueued w
  taken : accepted w.trace = passed w.trace
  delivered : Delivered w.trace

namespace Accounted

variable {w w' : World}

/-- An event that neither passes nor takes any bytes and is no shutdown. -/
lemma emit (h : Accounted w) {e : Event} (haccepted : e.acceptedBytes = [])
    (hpassed : e.passedBytes = []) (hshutdown : ∀ unsent, e ≠ .shutdownWr unsent) :
    Accounted (w.emit e) where
  unqueued := h.unqueued.of_conn rfl rfl
  taken := by
    rw [World.emit_trace, accepted_append, passed_append, h.taken]
    simp only [accepted_cons, passed_cons, haccepted, hpassed, accepted_nil, passed_nil]
  delivered := delivered_append.2 ⟨h.delivered, fun unsent he => absurd he (hshutdown unsent)⟩

lemma sent (h : Accounted w) (data : List UInt8) : Accounted (w.sent data) where
  unqueued := h.unqueued.sent data
  taken := by simp [h.taken]
  delivered := by
    rw [World.sent_trace]
    exact delivered_append.2 ⟨delivered_append.2 ⟨h.delivered, by simp⟩, by simp⟩

lemma shutdown (h : Accounted w) : Accounted (tcpConnectionShutdown w) where
  unqueued := h.unqueued.of_conn rfl rfl
  taken := by simp [tcpConnectionShutdown, h.taken]
  delivered := by
    refine delivered_append.2 ⟨h.delivered, fun unsent he => ?_⟩
    cases he
    exact ⟨h.unqueued.unsent, h.taken⟩

/-- What changes neither the record nor what is to be sent. -/
lemma of_conn (h : Accounted w) (htrace : w'.trace = w.trace)
    (houtput : w'.conn.outputBuffer = w.conn.outputBuffer)
    (hchannel : w'.conn.channel = w.conn.channel) : Accounted w' where
  unqueued := h.unqueued.of_conn houtput hchannel
  taken := htrace ▸ h.taken
  delivered := htrace ▸ h.delivered

lemma answered (h : Accounted w) (q : HttpRequest) (closes : Bool) :
    Accounted (answered w q closes) := by
  cases closes with
  | false => exact h.of_conn rfl rfl rfl
  | true => exact h.shutdown.of_conn rfl rfl rfl

lemma onMessage {m : MessageAnswers} (h : Accounted w)
    (hreturned : httpOnMessage m w = .returned w') : Accounted w' := by
  obtain ⟨q₀, s, w₁, data, closes, -, -, hw₁, rfl⟩ := httpOnMessage_cases h.unqueued hreturned
  have hparsed : Accounted (w.afterParse s) := h.of_conn rfl rfl rfl
  refine (Accounted.sent ?_ data).answered _ _
  rcases hw₁ with rfl | rfl
  · exact hparsed
  · exact hparsed.emit rfl rfl (by simp)

/-- One call keeps the account. -/
lemma step {c : ConnectionCall} (h : Accounted w)
    (hreturned : connectionStep w c = .returned w') : Accounted w' := by
  cases c with
  | conn op =>
    rcases h.unqueued.connStep_cases hreturned with ⟨a, -, -, rfl⟩ | ⟨-, ⟨e, rfl⟩ | rfl⟩
    · exact h.sent _
    · exact h.emit rfl rfl (by simp)
    · exact h.emit rfl rfl (by simp)
  | shutdown =>
    cases hreturned
    exact h.shutdown
  | handleRead m r result =>
    obtain ⟨input, n, -, ⟨-, hmessage⟩ | rfl⟩ := httpHandleRead_cases hreturned
    · have hinput : Accounted (w.setInput input) := h.of_conn rfl rfl rfl
      exact hinput.onMessage hmessage
    · have hinput : Accounted (w.setInput input) := h.of_conn rfl rfl rfl
      have hremoved : Accounted ((w.setInput input).emit
          (.remove w.conn.eventLoop w.conn.channel)) := hinput.emit rfl rfl (by simp)
      exact hremoved.of_conn rfl rfl rfl

end Accounted

lemma httpConnection_accounted (connectedFd : ℤ) (eventLoop self : ℕ) (fresh₁ fresh₂ : ℕ → UInt8)
    (heap : Heap) (httpServer : HttpServer) :
    Accounted (httpConnection connectedFd eventLoop self fresh₁ fresh₂ heap httpServer) where
  unqueued := httpConnection_unqueued connectedFd eventLoop self fresh₁ fresh₂ heap httpServer
  taken := rfl
  delivered := by
    intro before unsent after h
    have hlen := congrArg List.length h
    cases before with
    | nil => cases h
    | cons e before => simp [httpConnection, tcpConnectionNew] at hlen

/-- In every run of a connection of the server, whatever the application, the kernel and the
allocator do, everything passed has been taken by the socket whenever the write side is shut
down. -/
theorem shutdown_delivers (connectedFd : ℤ) (eventLoop self : ℕ) (fresh₁ fresh₂ : ℕ → UInt8)
    (heap : Heap) (httpServer : HttpServer) (calls : List ConnectionCall) :
    Outcome.Throughout connectionStep KeepsDelivered
      (httpConnection connectedFd eventLoop self fresh₁ fresh₂ heap httpServer) calls := by
  have hnew := httpConnection_accounted connectedFd eventLoop self fresh₁ fresh₂ heap httpServer
  exact Outcome.throughout_of_inv Accounted
    (fun _ _ h _ hstep => (h.step hstep).delivered) (fun _ _ _ h hstep => h.step hstep) hnew

end Yolanda
