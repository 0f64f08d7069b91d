import CPYuZe.ConnectionPool.Pool

/-!
# The timeout of `getconnection`

A call of `getconnection` that finds the queue empty waits with `wait_for`, and it waits for the
whole `_connettion_timeout` again whenever it is woken for nothing.  `getconnectionCall` carries a
call through its wake-ups; `promptCall` says what they should come to: a connection at the first
wake-up that finds one, `nullptr` at the first one from the deadline on, and the same deadline all
the while.  They agree exactly if no notification that brings nothing comes later than the call
(`prompt_iff`).

Such notifications come without end from a producer that may not make another connection: it
notifies everybody on every round, and whoever waits begins to wait anew (`vain_rounds`).
-/

namespace ConnectionPool

/-- A waiting thread has the lock again: when, what `wait_for` returns, and the queue. -/
structure WakeUp where
  time : ℤ
  status : CvStatus
  que : List ℕ

/-- Where a call of `getconnection` is. -/
inductive CallState
  /-- It is in `wait_for`, which times out at the deadline. -/
  | waiting (deadline : ℤ)
  /-- It has returned a connection or `nullptr`. -/
  | returned (conn : Option ℕ) (time : ℤ)

/-- A wake-up of a call. -/
def wake (timeout : ℤ) (call : CallState) (w : WakeUp) : CallState :=
  match call with
  | .returned conn time => .returned conn time
  | .waiting _ =>
    match consumerTurn (some w.status) w.que with
    | .take conn _ => .returned (some conn) w.time
    | .giveUp => .returned none w.time
    | .wait => .waiting (w.time + timeout)

/-- A call that finds the queue empty at `found`, and its wake-ups. -/
def getconnectionCall (timeout found : ℤ) (ws : List WakeUp) : CallState :=
  ws.foldl (wake timeout) (.waiting (found + timeout))

/-- A wake-up of a call that keeps its deadline. -/
def promptWake (call : CallState) (w : WakeUp) : CallState :=
  match call with
  | .returned conn time => .returned conn time
  | .waiting deadline =>
    match w.que with
    | conn :: _ => .returned (some conn) w.time
    | [] => if deadline ≤ w.time then .returned none w.time else .waiting deadline

/-- What a call and its wake-ups should come to. -/
def promptCall (timeout found : ℤ) (ws : List WakeUp) : CallState :=
  ws.foldl promptWake (.waiting (found + timeout))

/-- The call honours its timeout at every wake-up. -/
def Prompt (timeout found : ℤ) (ws : List WakeUp) : Prop :=
  ∀ ws', ws' <+: ws → getconnectionCall timeout found ws' = promptCall timeout found ws'

/-- A notification that brings no connection. -/
structure WakeUp.Useless (w : WakeUp) : Prop where
  notified : w.status = .noTimeout
  empty : w.que = []

/-- `wait_for` does not report a timeout before its deadline. -/
def Timely (timeout : ℤ) : ℤ → List WakeUp → Prop
  | _, [] => True
  | deadline, w :: ws =>
    (w.status = .timeout → deadline ≤ w.time) ∧ (w.Useless → Timely timeout (w.time + timeout) ws)

/-- The call is woken for nothing only in the instant in which it has found the queue empty. -/
def NeverVain (timeout found : ℤ) (ws : List WakeUp) : Prop :=
  ∀ front w rest, ws = front ++ w :: rest → (∀ v ∈ front, v.Useless) → w.Useless →
    w.time = found ∧ 0 < timeout

section

variable {timeout found time : ℤ} {conn : Option ℕ} {w : WakeUp} {ws : List WakeUp}

lemma foldl_wake_returned (ws : List WakeUp) :
    ws.foldl (wake timeout) (.returned conn time) = .returned conn time := by
  induction ws with
  | nil => rfl
  | cons w ws ih => exact ih

lemma foldl_promptWake_returned (ws : List WakeUp) :
    ws.foldl promptWake (.returned conn time) = .returned conn time := by
  induction ws with
  | nil => rfl
  | cons w ws ih => exact ih

/-- Only the first wake-up matters if the call returns at it, and returns rightly. -/
lemma prompt_of_returned {deadline : ℤ} (hdeadline : deadline = found + timeout)
    (hwake : wake timeout (.waiting deadline) w = .returned conn time)
    (hprompt : promptWake (.waiting deadline) w = .returned conn time) :
    Prompt timeout found (w :: ws) := by
  intro ws' hws'
  cases ws' with
  | nil => rfl
  | cons w' ws' =>
    obtain ⟨rfl, -⟩ := List.cons_prefix_cons.1 hws'
    rw [getconnectionCall, promptCall, List.foldl_cons, List.foldl_cons, ← hdeadline, hwake,
      hprompt, foldl_wake_returned, foldl_promptWake_returned]

lemma neverVain_of_not_useless (h : ¬ w.Useless) : NeverVain timeout found (w :: ws) := by
  intro front v rest heq hfront hv
  cases front with
  | nil =>
    obtain ⟨rfl, -⟩ := List.cons_eq_cons.1 heq
    exact absurd hv h
  | cons v' front =>
    obtain ⟨rfl, -⟩ := List.cons_eq_cons.1 heq
    exact absurd (hfront w List.mem_cons_self) h

lemma neverVain_cons (h : w.Useless) :
    NeverVain timeout found (w :: ws) ↔
      (w.time = found ∧ 0 < timeout) ∧ NeverVain timeout found ws := by
  constructor
  · intro hnever
    refine ⟨hnever [] w ws rfl (by simp) h, fun front v rest heq hfront hv => ?_⟩
    refine hnever (w :: front) v rest (by rw [heq, List.cons_append]) (fun v' hv' => ?_) hv
    rcases List.mem_cons.1 hv' with rfl | hmem
    · exact h
    · exact hfront v' hmem
  · rintro ⟨hw, hnever⟩ front v rest heq hfront hv
    cases front with
    | nil =>
      obtain ⟨rfl, -⟩ := List.cons_eq_cons.1 heq
      exact hw
    | cons v' front =>
      obtain ⟨-, hrest⟩ := List.cons_eq_cons.1 heq
      exact hnever front v rest hrest (fun v'' hv'' => hfront v'' (List.mem_cons_of_mem _ hv'')) hv

/-- A wake-up for nothing puts the deadline off, unless no time has passed. -/
lemma prompt_cons (h : w.Useless) :
    Prompt timeout found (w :: ws) ↔
      (w.time = found ∧ 0 < timeout) ∧ Prompt timeout found ws := by
  have hwake : ∀ deadline, wake timeout (.waiting deadline) w = .waiting (w.time + timeout) := by
    intro deadline
    simp only [wake, consumerTurn, h.notified, h.empty]
  have hprompt : ∀ deadline, promptWake (.waiting deadline) w =
      if deadline ≤ w.time then .returned none w.time else .waiting deadline := by
    intro deadline
    simp only [promptWake, h.empty]
  have hsame : w.time = found ∧ 0 < timeout → ∀ ws', getconnectionCall timeout found (w :: ws') =
      getconnectionCall timeout found ws' ∧
        promptCall timeout found (w :: ws') = promptCall timeout found ws' := by
    rintro ⟨htime, hpos⟩ ws'
    have hlate : ¬ found + timeout ≤ w.time := by omega
    refine ⟨?_, ?_⟩
    · rw [getconnectionCall, List.foldl_cons, hwake, htime, getconnectionCall]
    · rw [promptCall, List.foldl_cons, hprompt, if_neg hlate, promptCall]
  constructor
  · intro hall
    have hone := hall [w] (List.cons_prefix_cons.2 ⟨rfl, List.nil_prefix⟩)
    rw [getconnectionCall, promptCall, List.foldl_cons, List.foldl_cons, hwake, hprompt] at hone
    have hinstant : w.time = found ∧ 0 < timeout := by
      by_cases hlate : found + timeout ≤ w.time
      · rw [if_pos hlate] at hone
        exact absurd hone (by simp)
      · rw [if_neg hlate] at hone
        have hdeadline : w.time + timeout = found + timeout := by simpa using hone
        omega
    refine ⟨hinstant, fun ws' hws' => ?_⟩
    obtain ⟨hcall, hpromptCall⟩ := hsame hinstant ws'
    rw [← hcall, ← hpromptCall]
    exact hall (w :: ws') (List.cons_prefix_cons.2 ⟨rfl, hws'⟩)
  · rintro ⟨hinstant, hrest⟩ ws' hws'
    cases ws' with
    | nil => rfl
    | cons w' ws' =>
      obtain ⟨rfl, hprefix⟩ := List.cons_prefix_cons.1 hws'
      obtain ⟨hcall, hpromptCall⟩ := hsame hinstant ws'
      rw [hcall, hpromptCall]
      exact hrest ws' hprefix

end

/-- A call of `getconnection` honours its timeout at every wake-up exactly if it is not woken for
nothing later than in the instant in which it has found the queue empty. -/
theorem prompt_iff {timeout found : ℤ} {ws : List WakeUp}
    (htimely : Timely timeout (found + timeout) ws) :
    Prompt timeout found ws ↔ NeverVain timeout found ws := by
  induction ws with
  | nil =>
    refine ⟨fun _ front w rest heq => absurd heq.symm (by simp), fun _ ws' hws' => ?_⟩
    rw [List.prefix_nil.1 hws']
    rfl
  | cons w ws ih =>
    obtain ⟨hstatus, hrest⟩ := htimely
    by_cases huseless : w.Useless
    · rw [prompt_cons huseless, neverVain_cons huseless]
      refine and_congr_right fun hinstant => ih ?_
      rw [← hinstant.1]
      exact hrest huseless
    · have hnever : NeverVain timeout found (w :: ws) := neverVain_of_not_useless huseless
      refine ⟨fun _ => hnever, fun _ => ?_⟩
      cases hque : w.que with
      | cons conn rest =>
        have hwake : wake timeout (.waiting (found + timeout)) w =
            .returned (some conn) w.time := by
          simp only [wake, consumerTurn, hque]
        have hprompt : promptWake (.waiting (found + timeout)) w =
            .returned (some conn) w.time := by
          simp only [promptWake, hque]
        exact prompt_of_returned rfl hwake hprompt
      | nil =>
        cases hw : w.status with
        | noTimeout => exact absurd ⟨hw, hque⟩ huseless
        | timeout =>
          have hwake : wake timeout (.waiting (found + timeout)) w = .returned none w.time := by
            simp only [wake, consumerTurn, hque, hw]
          have hprompt : promptWake (.waiting (found + timeout)) w = .returned none w.time := by
            simp only [promptWake, hque, if_pos (hstatus hw)]
          exact prompt_of_returned rfl hwake hprompt

/-- `_connettion_timeout`, in milliseconds. -/
def connettionTimeout : ℤ := 100

/-- A notification for nothing after 50 ms puts the deadline off to 150 ms. -/
theorem not_prompt_notified : Timely connettionTimeout connettionTimeout [⟨50, .noTimeout, []⟩] ∧
    ¬ Prompt connettionTimeout 0 [⟨50, .noTimeout, []⟩] := by
  refine ⟨⟨fun htimeout => absurd htimeout (by simp), fun _ => trivial⟩, fun hprompt => ?_⟩
  have hwhole := hprompt _ List.prefix_rfl
  have hdeadline : (150 : ℤ) = 100 := CallState.waiting.inj hwhole
  omega

/-- A connection comes after 50 ms. -/
theorem prompt_iff_served : Prompt connettionTimeout 0 [⟨50, .noTimeout, [3]⟩] := by
  have hused : ¬ WakeUp.Useless ⟨50, .noTimeout, [3]⟩ := fun h => absurd h.empty (by simp)
  have htimely : Timely connettionTimeout (0 + connettionTimeout) [⟨50, .noTimeout, [3]⟩] :=
    ⟨fun htimeout => absurd htimeout (by simp), fun h => absurd h hused⟩
  exact (prompt_iff htimely).2 (neverVain_of_not_useless hused)

/-! ## Notifications without end -/

/-- A thread waits for a connection, all that there may be are lent out, and the producer is at
work. -/
structure Vain (cfg : Config) (thread : ℕ) (s : Pool) : Prop where
  empty : s.connectionQue = []
  full : cfg.maxSize ≤ s.connectionCnt
  asleep : s.consumer thread = .asleep
  producing : s.producer = .locking

/-- A round of the producer, and the thread it has woken. -/
def vainRound (thread : ℕ) (connect : Option ℤ) : List Op :=
  [.produce connect, .resume thread .noTimeout]

/-- The thread waits again, and the producer begins its next round. -/
lemma vainRound_returns {cfg : Config} {thread : ℕ} {s : Pool} (h : Vain cfg thread s)
    (connect : Option ℤ) :
    Outcome.Throughout (step cfg) Possible s (vainRound thread connect) ∧
      ∃ s', Outcome.run (step cfg) s (vainRound thread connect) = .returned s' ∧
        Vain cfg thread s' := by
  have hproduce : step cfg s (.produce connect) = .returned s.notifyAll := by
    show Outcome.returned (s.produceConnectionTask cfg connect) = .returned s.notifyAll
    rw [Pool.produceConnectionTask, h.empty]
    simp only [if_neg (not_lt.2 h.full)]
  have hresume : step cfg s.notifyAll (.resume thread .noTimeout) =
      .returned (s.notifyAll.setConsumer thread .asleep) := by
    have hempty : s.notifyAll.connectionQue = [] := h.empty
    show Outcome.returned (s.notifyAll.getconnection thread (some .noTimeout)) = _
    rw [Pool.getconnection, hempty]
    rfl
  have hwoken : s.notifyAll.consumer thread = .woken := by
    show CondVar.notifyAll wakeConsumer s.consumer thread = .woken
    rw [CondVar.notifyAll, h.asleep]
    rfl
  refine ⟨?_, s.notifyAll.setConsumer thread .asleep, ?_, ⟨h.empty, h.full, ?_, rfl⟩⟩
  · refine (Outcome.throughout_cons_returned hproduce _).2 ⟨h.producing, ?_⟩
    exact (Outcome.throughout_cons_returned hresume _).2 ⟨hwoken, trivial⟩
  · rw [vainRound, Outcome.run_cons_returned hproduce, Outcome.run_cons_returned hresume]
    rfl
  · exact Function.update_self _ _ _

/-- However many rounds the producer makes, the thread is woken on each of them and waits again. -/
theorem vain_rounds {cfg : Config} {thread : ℕ} {s : Pool} (h : Vain cfg thread s)
    (connects : List (Option ℤ)) :
    Outcome.Throughout (step cfg) Possible s (connects.flatMap (vainRound thread)) ∧
      ∃ s', Outcome.run (step cfg) s (connects.flatMap (vainRound thread)) = .returned s' ∧
        Vain cfg thread s' := by
  induction connects generalizing s with
  | nil => exact ⟨trivial, s, rfl, h⟩
  | cons connect connects ih =>
    obtain ⟨hpossible, s₁, hround, hvain⟩ := vainRound_returns h connect
    obtain ⟨hpossible', s', hrounds, hvain'⟩ := ih hvain
    rw [List.flatMap_cons]
    refine ⟨Outcome.throughout_append.2 ⟨hpossible, fun s₂ hs₂ => ?_⟩, s', ?_, hvain'⟩
    · obtain rfl : s₁ = s₂ := Outcome.returned.inj (hround.symm.trans hs₂)
      exact hpossible'
    · rw [Outcome.run_append hround]
      exact hrounds

end ConnectionPool
