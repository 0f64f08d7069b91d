import CPYuZe.Library.Outcome
import CPYuZe.ThreadPool.FixedThreadPool

/-!
# The life of a pool object

A `fixed_thread_pool` is a shared pointer to a `res_info`, and the threads of the pool have copies
of that pointer.  An object is made with a pool of its own, or empty, or by taking the pool from
another one, which is empty from then on.  The destructor sets the flag of the pool only if there
is one, but it notifies the workers whether there is one or not.

`Objects` has the objects that are alive, by their addresses, and every `res_info` that was made.
A run is a list of the calls a program can make (`Possible`): it constructs objects where there
are none, and moves from, executes on and destroys those that are there.  Each pool is told to shut
down once, by the object that holds it last, and no call goes wrong, exactly if only objects that
hold a pool are destroyed (`movesFreely_iff`).  A program that destroys all its objects in the end
has then never made an empty one and never moved from one (`constructs_of_allDestroyed`).

What the objects do with a pool are steps of `Step`, so that a pool behind any run is one of those
that can be reached (`exists_pool`).
-/

namespace FixedThreadPool

/-- What goes wrong with an object. -/
inductive ObjectFault
  /-- `data_` is null and is followed. -/
  | nullPointer
  /-- There is no object at the address. -/
  | notAlive
  deriving DecidableEq, Repr

/-- A `res_info`, as far as objects know it. -/
structure ResInfo (τ : Type*) where
  threadCount : ℕ
  /-- The tasks in the order in which they were put in. -/
  enqueued : List τ
  isShutdown : Bool
  /-- The objects whose destructors have told the workers to shut down. -/
  toldBy : List ℕ

structure Objects (τ : Type*) where
  /-- `data_` of the object at an address, if there is one. -/
  object : ℕ → Option (Option ℕ)
  resInfo : ℕ → ResInfo τ
  /-- How many pools have been made; they are the numbers below it. -/
  made : ℕ

inductive ObjectOp (τ : Type*)
  /-- `fixed_thread_pool()`. -/
  | default (object : ℕ)
  /-- `fixed_thread_pool(thread_count)`. -/
  | construct (object threadCount : ℕ)
  /-- `fixed_thread_pool(fixed_thread_pool&&)`. -/
  | moveConstruct (object source : ℕ)
  | execute (object : ℕ) (task : τ)
  /-- `~fixed_thread_pool()`. -/
  | destroy (object : ℕ)

namespace ResInfo

variable {τ : Type*}

def init (threadCount : ℕ) : ResInfo τ := ⟨threadCount, [], false, []⟩

def emplace (r : ResInfo τ) (task : τ) : ResInfo τ := { r with enqueued := r.enqueued ++ [task] }

/-- The flag is set and all workers are notified. -/
def shutDown (r : ResInfo τ) (object : ℕ) : ResInfo τ :=
  { r with isShutdown := true, toldBy := r.toldBy ++ [object] }

end ResInfo

namespace Objects

variable {τ : Type*}

def init : Objects τ := ⟨fun _ => none, fun _ => ResInfo.init 0, 0⟩

def setObject (s : Objects τ) (o : ℕ) (data : Option (Option ℕ)) : Objects τ :=
  { s with object := Function.update s.object o data }

def setResInfo (s : Objects τ) (p : ℕ) (r : ResInfo τ) : Objects τ :=
  { s with resInfo := Function.update s.resInfo p r }

/-- `data_(std::make_shared<res_info>())`, and the threads that have copies of it. -/
def make (s : Objects τ) (o threadCount : ℕ) : Objects τ :=
  { (s.setObject o (some (some s.made))).setResInfo s.made (.init threadCount) with
    made := s.made + 1 }

/-- The move constructor of the pointer: `source` is null from then on. -/
def move (s : Objects τ) (o source : ℕ) (data : Option ℕ) : Objects τ :=
  (s.setObject source (some none)).setObject o (some data)

/-- The end of an object that tells the pool `p` to shut down. -/
def release (s : Objects τ) (o p : ℕ) : Objects τ :=
  (s.setObject o none).setResInfo p ((s.resInfo p).shutDown o)

def step (s : Objects τ) : ObjectOp τ → Outcome ObjectFault (Objects τ)
  | .default o => .returned (s.setObject o (some none))
  | .construct o threadCount => .returned (s.make o threadCount)
  | .moveConstruct o source =>
    match s.object source with
    | none => .faulted .notAlive
    | some data => .returned (s.move o source data)
  | .execute o task =>
    match s.object o with
    | none => .faulted .notAlive
    | some none => .faulted .nullPointer
    | some (some p) => .returned (s.setResInfo p ((s.resInfo p).emplace task))
  | .destroy o =>
    match s.object o with
    | none => .faulted .notAlive
    -- the workers are notified outside the branch for a pointer that is not null
    | some none => .faulted .nullPointer
    | some (some p) => .returned (s.release o p)

def Holds (s : Objects τ) (o p : ℕ) : Prop := s.object o = some (some p)

instance (s : Objects τ) (o p : ℕ) : Decidable (s.Holds o p) := inferInstanceAs (Decidable (_ = _))

/-- The calls a program can make; `execute` is called on objects with a pool. -/
def Possible (s : Objects τ) : ObjectOp τ → Prop
  | .default o | .construct o _ => s.object o = none
  | .moveConstruct o source => s.object o = none ∧ s.object source ≠ none
  | .execute o _ => ∃ p, s.Holds o p
  | .destroy o => s.object o ≠ none

/-- One object holds the pool and nobody has told its workers to shut down, or no object holds it
any more and one of them has. -/
def ToldOnce (s : Objects τ) (p : ℕ) : Prop :=
  (∃ o, s.Holds o p ∧ (∀ o', s.Holds o' p → o' = o) ∧
      (s.resInfo p).toldBy = [] ∧ (s.resInfo p).isShutdown = false) ∨
    (∀ o, ¬ s.Holds o p) ∧ (∃ o, (s.resInfo p).toldBy = [o]) ∧ (s.resInfo p).isShutdown = true

/-- The workers of the pool are told by an object that holds it. -/
def tellers (s : Objects τ) (p : ℕ) : ObjectOp τ → List ℕ
  | .destroy o => if s.Holds o p then [o] else []
  | _ => []

/-- The call comes back, each pool is told once, and it is told by the object that holds it. -/
def MovesFreely (s : Objects τ) (op : ObjectOp τ) : Prop :=
  ∃ s', s.step op = .returned s' ∧ (∀ p < s'.made, s'.ToldOnce p) ∧
    ∀ p < s.made, (s'.resInfo p).toldBy = (s.resInfo p).toldBy ++ s.tellers p op

/-- No object without a pool is destroyed. -/
def DestroysHolder (s : Objects τ) (op : ObjectOp τ) : Prop :=
  ∀ o, op = .destroy o → ∃ p, s.Holds o p

/-- What holds between two calls. -/
structure Consistent (s : Objects τ) : Prop where
  told : ∀ p < s.made, s.ToldOnce p
  made : ∀ o p, s.Holds o p → p < s.made

/-! ## One call -/

section Calls

variable {s s' : Objects τ} {o o' p : ℕ}

@[simp] lemma setObject_self (s : Objects τ) (o : ℕ) (data : Option (Option ℕ)) :
    (s.setObject o data).object o = data :=
  Function.update_self _ _ _

lemma setObject_of_ne (s : Objects τ) {o o' : ℕ} (h : o' ≠ o) (data : Option (Option ℕ)) :
    (s.setObject o data).object o' = s.object o' :=
  Function.update_of_ne h _ _

lemma holds_setObject_self {data : Option (Option ℕ)} :
    (s.setObject o data).Holds o p ↔ data = some (some p) := by
  rw [Holds, setObject_self]

lemma holds_setObject_of_ne (h : o' ≠ o) {data : Option (Option ℕ)} :
    (s.setObject o data).Holds o' p ↔ s.Holds o' p := by
  rw [Holds, Holds, setObject_of_ne s h]

@[simp] lemma holds_setResInfo {p' : ℕ} {r : ResInfo τ} :
    (s.setResInfo p' r).Holds o p ↔ s.Holds o p := Iff.rfl

@[simp] lemma setResInfo_self {r : ResInfo τ} : (s.setResInfo p r).resInfo p = r :=
  Function.update_self _ _ _

lemma setResInfo_of_ne {p' : ℕ} (h : p' ≠ p) {r : ResInfo τ} :
    (s.setResInfo p r).resInfo p' = s.resInfo p' :=
  Function.update_of_ne h _ _

lemma make_resInfo_self (s : Objects τ) (o threadCount : ℕ) :
    (s.make o threadCount).resInfo s.made = .init threadCount :=
  Function.update_self _ _ _

lemma make_resInfo_of_ne (s : Objects τ) (o threadCount : ℕ) (h : p ≠ s.made) :
    (s.make o threadCount).resInfo p = s.resInfo p :=
  Function.update_of_ne h _ _

lemma release_resInfo_self (s : Objects τ) (o p : ℕ) :
    (s.release o p).resInfo p = (s.resInfo p).shutDown o :=
  Function.update_self _ _ _

lemma release_resInfo_of_ne (s : Objects τ) (o : ℕ) {p p' : ℕ} (h : p' ≠ p) :
    (s.release o p).resInfo p' = s.resInfo p' :=
  Function.update_of_ne h _ _

/-- An object without a pool can be replaced by another one without. -/
lemma holds_setObject_of_not (h : ∀ p, ¬ s.Holds o p) {data : Option (Option ℕ)}
    (hdata : ∀ p, data ≠ some (some p)) : (s.setObject o data).Holds o' p ↔ s.Holds o' p := by
  by_cases ho : o' = o
  · subst ho
    rw [holds_setObject_self]
    exact iff_of_false (hdata p) (h p)
  · exact holds_setObject_of_ne ho

lemma not_holds_of_none (h : s.object o = none) (p : ℕ) : ¬ s.Holds o p := by
  intro hholds
  rw [Holds, h] at hholds
  cases hholds

lemma moveConstruct_returned {source : ℕ} (h : s.step (.moveConstruct o source) = .returned s') :
    ∃ data, s.object source = some data ∧ s' = s.move o source data := by
  cases hdata : s.object source with
  | none => simp [step, hdata] at h
  | some data =>
    rw [step, hdata] at h
    exact ⟨data, rfl, (Outcome.returned.inj h).symm⟩

lemma execute_returned {task : τ} (h : s.step (.execute o task) = .returned s') :
    ∃ p, s.Holds o p ∧ s' = s.setResInfo p ((s.resInfo p).emplace task) := by
  rcases hdata : s.object o with - | - | p
  · simp [step, hdata] at h
  · simp [step, hdata] at h
  · rw [step, hdata] at h
    exact ⟨p, hdata, (Outcome.returned.inj h).symm⟩

/-- A destructor that comes back is that of an object with a pool. -/
lemma destroy_returned (h : s.step (.destroy o) = .returned s') :
    ∃ p, s.Holds o p ∧ s' = s.release o p := by
  rcases hdata : s.object o with - | - | p
  · simp [step, hdata] at h
  · simp [step, hdata] at h
  · rw [step, hdata] at h
    exact ⟨p, hdata, (Outcome.returned.inj h).symm⟩

/-- It depends on the holders of a pool and on its data whether its workers are told once. -/
lemma ToldOnce.congr (h : s.ToldOnce p) (hholds : ∀ o, s'.Holds o p ↔ s.Holds o p)
    (htold : (s'.resInfo p).toldBy = (s.resInfo p).toldBy)
    (hshut : (s'.resInfo p).isShutdown = (s.resInfo p).isShutdown) : s'.ToldOnce p := by
  unfold ToldOnce
  simp only [hholds, htold, hshut]
  exact h

/-- A pool that is held has not been told to shut down, and nobody else holds it. -/
lemma ToldOnce.of_holds (h : s.ToldOnce p) (ho : s.Holds o p) :
    (∀ o', s.Holds o' p → o' = o) ∧ (s.resInfo p).toldBy = [] ∧
      (s.resInfo p).isShutdown = false := by
  rcases h with ⟨o₁, -, hunique, htold⟩ | ⟨hnobody, -⟩
  · obtain rfl := hunique o ho
    exact ⟨hunique, htold⟩
  · exact absurd ho (hnobody o)

namespace Consistent

lemma init : (Objects.init : Objects τ).Consistent where
  told p hp := absurd hp (Nat.not_lt_zero p)
  made o p h := by cases h

lemma default (h : s.Consistent) (ho : s.object o = none) :
    (s.setObject o (some none)).Consistent := by
  have hholds : ∀ o' p, (s.setObject o (some none)).Holds o' p ↔ s.Holds o' p :=
    fun o' p => holds_setObject_of_not (not_holds_of_none ho) (by simp)
  refine ⟨fun p hp => (h.told p hp).congr (fun o' => hholds o' p) rfl rfl, fun o' p hp => ?_⟩
  exact h.made o' p ((hholds o' p).1 hp)

lemma construct (h : s.Consistent) (ho : s.object o = none) (threadCount : ℕ) :
    (s.make o threadCount).Consistent := by
  have hself : ∀ p, (s.make o threadCount).Holds o p ↔ p = s.made := by
    intro p
    show (s.setObject o (some (some s.made))).Holds o p ↔ p = s.made
    rw [holds_setObject_self, Option.some.injEq, Option.some.injEq]
    exact eq_comm
  have hother : ∀ o' p, o' ≠ o → ((s.make o threadCount).Holds o' p ↔ s.Holds o' p) :=
    fun o' p hne => holds_setObject_of_ne hne
  refine ⟨fun p hp => ?_, fun o' p hp => ?_⟩
  · by_cases hnew : p = s.made
    · subst hnew
      refine .inl ⟨o, (hself _).2 rfl, fun o' ho' => ?_, ?_⟩
      · by_contra hne
        exact lt_irrefl _ (h.made o' _ ((hother o' _ hne).1 ho'))
      · rw [make_resInfo_self]
        exact ⟨rfl, rfl⟩
    · have hlt : p < s.made := lt_of_le_of_ne (Nat.lt_succ_iff.1 hp) hnew
      have hinfo := s.make_resInfo_of_ne o threadCount hnew
      refine (h.told p hlt).congr (fun o' => ?_) (congrArg ResInfo.toldBy hinfo)
        (congrArg ResInfo.isShutdown hinfo)
      by_cases heq : o' = o
      · subst heq
        exact iff_of_false (fun hp => hnew ((hself p).1 hp)) (not_holds_of_none ho p)
      · exact hother o' p heq
  · show p < s.made + 1
    by_cases heq : o' = o
    · subst heq
      rw [(hself p).1 hp]
      exact Nat.lt_succ_self _
    · exact Nat.lt_succ_of_lt (h.made o' p ((hother o' p heq).1 hp))

/-- The pool goes from one object to the other. -/
lemma moveConstruct (h : s.Consistent) {source : ℕ} (ho : s.object o = none)
    {data : Option ℕ} (hsource : s.object source = some data) :
    (s.move o source data).Consistent := by
  have hne : source ≠ o := by
    rintro rfl
    rw [ho] at hsource
    cases hsource
  have hself : ∀ p, (s.move o source data).Holds o p ↔ s.Holds source p := by
    intro p
    rw [move, holds_setObject_self, Holds, hsource]
  have hempty : ∀ p, ¬ (s.move o source data).Holds source p := by
    intro p
    rw [move, holds_setObject_of_ne hne, holds_setObject_self]
    simp
  have hother : ∀ o' p, o' ≠ o → o' ≠ source →
      ((s.move o source data).Holds o' p ↔ s.Holds o' p) := by
    intro o' p ho' hsource'
    rw [move, holds_setObject_of_ne ho', holds_setObject_of_ne hsource']
  refine ⟨fun p hp => ?_, fun o' p hp => ?_⟩
  · by_cases hmoved : s.Holds source p
    · obtain ⟨hunique, htold⟩ := (h.told p hp).of_holds hmoved
      refine .inl ⟨o, (hself p).2 hmoved, fun o' ho' => ?_, htold⟩
      by_contra hneo
      by_cases heq : o' = source
      · exact hempty p (heq ▸ ho')
      · exact heq (hunique o' ((hother o' p hneo heq).1 ho'))
    · refine (h.told p hp).congr (fun o' => ?_) rfl rfl
      by_cases heq : o' = o
      · subst heq
        rw [hself]
        exact iff_of_false hmoved (not_holds_of_none ho p)
      · by_cases heq' : o' = source
        · subst heq'
          exact iff_of_false (hempty p) hmoved
        · exact hother o' p heq heq'
  · by_cases heq : o' = o
    · subst heq
      exact h.made source p ((hself p).1 hp)
    · by_cases heq' : o' = source
      · exact absurd (heq' ▸ hp) (hempty p)
      · exact h.made o' p ((hother o' p heq heq').1 hp)

lemma execute (h : s.Consistent) (p : ℕ) (task : τ) :
    (s.setResInfo p ((s.resInfo p).emplace task)).Consistent := by
  refine ⟨fun p' hp' => (h.told p' hp').congr (fun _ => Iff.rfl) ?_ ?_, h.made⟩ <;>
    by_cases heq : p' = p
  · subst heq
    rw [setResInfo_self]
    rfl
  · rw [setResInfo_of_ne heq]
  · subst heq
    rw [setResInfo_self]
    rfl
  · rw [setResInfo_of_ne heq]

/-- The last holder tells the workers. -/
lemma destroy (h : s.Consistent) (ho : s.Holds o p) : (s.release o p).Consistent := by
  have hlt := h.made o p ho
  obtain ⟨hunique, hnone, -⟩ := (h.told p hlt).of_holds ho
  have hgone : ∀ p', ¬ (s.release o p).Holds o p' := by
    intro p'
    show ¬ (s.setObject o none).Holds o p'
    rw [holds_setObject_self]
    simp
  have hother : ∀ o' p', o' ≠ o → ((s.release o p).Holds o' p' ↔ s.Holds o' p') :=
    fun o' p' hne => holds_setObject_of_ne hne
  refine ⟨fun p' hp' => ?_, fun o' p' hp' => ?_⟩
  · by_cases heq : p' = p
    · subst heq
      refine .inr ⟨fun o' ho' => ?_, ⟨o, ?_⟩, ?_⟩
      · by_cases heq : o' = o
        · exact hgone p' (heq ▸ ho')
        · exact heq (hunique o' ((hother o' p' heq).1 ho'))
      · rw [release_resInfo_self]
        show (s.resInfo p').toldBy ++ [o] = [o]
        rw [hnone]
        rfl
      · rw [release_resInfo_self]
        rfl
    · have hinfo := s.release_resInfo_of_ne o heq
      refine (h.told p' hp').congr (fun o' => ?_) (congrArg ResInfo.toldBy hinfo)
        (congrArg ResInfo.isShutdown hinfo)
      by_cases heq' : o' = o
      · subst heq'
        refine iff_of_false (hgone p') fun ho' => heq ?_
        rw [Holds, ho] at ho'
        cases ho'
        rfl
      · exact hother o' p' heq'
  · by_cases heq : o' = o
    · exact absurd (heq ▸ hp') (hgone p')
    · exact h.made o' p' ((hother o' p' heq).1 hp')

/-- What a call does that destroys no empty object. -/
lemma step (h : s.Consistent) {op : ObjectOp τ} (hpossible : s.Possible op)
    (hholder : s.DestroysHolder op) :
    ∃ s', s.step op = .returned s' ∧ s'.Consistent ∧
      ∀ p < s.made, (s'.resInfo p).toldBy = (s.resInfo p).toldBy ++ s.tellers p op := by
  cases op with
  | default o => exact ⟨_, rfl, h.default hpossible, fun p _ => (List.append_nil _).symm⟩
  | construct o threadCount =>
    refine ⟨_, rfl, h.construct hpossible threadCount, fun p hp => ?_⟩
    have hinfo := s.make_resInfo_of_ne o threadCount hp.ne
    exact (congrArg ResInfo.toldBy hinfo).trans (List.append_nil _).symm
  | moveConstruct o source =>
    obtain ⟨ho, hsource⟩ := hpossible
    obtain ⟨data, hdata⟩ := Option.ne_none_iff_exists'.1 hsource
    refine ⟨_, ?_, h.moveConstruct ho hdata, fun p _ => (List.append_nil _).symm⟩
    rw [Objects.step, hdata]
  | execute o task =>
    obtain ⟨p, hp⟩ := hpossible
    refine ⟨_, ?_, h.execute p task, fun p' _ => ?_⟩
    · rw [Objects.step, show s.object o = some (some p) from hp]
    · show _ = (s.resInfo p').toldBy ++ []
      rw [List.append_nil]
      by_cases heq : p' = p
      · subst heq
        rw [setResInfo_self]
        rfl
      · rw [setResInfo_of_ne heq]
  | destroy o =>
    obtain ⟨p, hp⟩ := hholder o rfl
    refine ⟨_, ?_, h.destroy hp, fun p' _ => ?_⟩
    · rw [Objects.step, show s.object o = some (some p) from hp]
    · by_cases heq : p' = p
      · subst heq
        rw [release_resInfo_self, tellers, if_pos hp]
        rfl
      · have hnot : ¬ s.Holds o p' := by
          intro hp'
          rw [Holds, hp] at hp'
          cases hp'
          exact heq rfl
        rw [release_resInfo_of_ne s o heq, tellers, if_neg hnot, List.append_nil]

/-- The destructor of an empty object follows a null pointer, and nothing else goes wrong. -/
lemma movesFreely_iff_holder (h : s.Consistent) {op : ObjectOp τ} (hpossible : s.Possible op) :
    s.MovesFreely op ↔ s.DestroysHolder op := by
  constructor
  · rintro ⟨s', hstep, -⟩ o rfl
    obtain ⟨p, hp, -⟩ := destroy_returned hstep
    exact ⟨p, hp⟩
  · intro hholder
    obtain ⟨s', hstep, hs', htold⟩ := h.step hpossible hholder
    exact ⟨s', hstep, hs'.told, htold⟩

end Consistent

end Calls

/-! ## Runs -/

section Runs

variable {ops : List (ObjectOp τ)}

/-- No destructor follows a null pointer, and the workers of each pool are told once, by the object
that held it last, exactly if no object without a pool is destroyed. -/
theorem movesFreely_iff (hops : Outcome.Throughout step Possible (init : Objects τ) ops) :
    Outcome.Throughout step MovesFreely init ops ↔
      Outcome.Throughout step DestroysHolder init ops := by
  refine hops.iff (fun _ _ hs hpossible => hs.movesFreely_iff_holder hpossible) ?_ Consistent.init
  intro s op s' hs hpossible hfreely hstep
  have hholder := (hs.movesFreely_iff_holder hpossible).1 hfreely
  obtain ⟨s₁, hstep₁, hs₁, -⟩ := hs.step hpossible hholder
  obtain rfl : s₁ = s' := Outcome.returned.inj (hstep₁.symm.trans hstep)
  exact hs₁

/-- A pool that is moved, used and destroyed. -/
theorem movesFreely_iff_moved :
    Outcome.Throughout step Possible (init : Objects ℕ)
        [.construct 0 3, .moveConstruct 1 0, .execute 1 7, .destroy 1] ∧
      Outcome.Throughout step MovesFreely (init : Objects ℕ)
        [.construct 0 3, .moveConstruct 1 0, .execute 1 7, .destroy 1] := by
  have hpossible : Outcome.Throughout step Possible (init : Objects ℕ)
      [.construct 0 3, .moveConstruct 1 0, .execute 1 7, .destroy 1] := by
    refine (Outcome.throughout_cons_returned rfl _).2 ⟨rfl, ?_⟩
    refine (Outcome.throughout_cons_returned rfl _).2 ⟨⟨rfl, by rintro ⟨⟩⟩, ?_⟩
    refine (Outcome.throughout_cons_returned rfl _).2 ⟨⟨0, rfl⟩, ?_⟩
    exact (Outcome.throughout_cons_returned rfl _).2 ⟨by rintro ⟨⟩, trivial⟩
  refine ⟨hpossible, (movesFreely_iff hpossible).2 ?_⟩
  refine (Outcome.throughout_cons_returned rfl _).2 ⟨by rintro o ⟨⟩, ?_⟩
  refine (Outcome.throughout_cons_returned rfl _).2 ⟨by rintro o ⟨⟩, ?_⟩
  refine (Outcome.throughout_cons_returned rfl _).2 ⟨by rintro o ⟨⟩, ?_⟩
  exact (Outcome.throughout_cons_returned rfl _).2 ⟨by rintro o ⟨⟩; exact ⟨0, rfl⟩, trivial⟩

/-- The object moved from is destroyed. -/
theorem not_movesFreely_moved :
    Outcome.Throughout step Possible (init : Objects ℕ)
        [.construct 0 3, .moveConstruct 1 0, .destroy 0] ∧
      Outcome.run step (init : Objects ℕ) [.construct 0 3, .moveConstruct 1 0, .destroy 0] =
        .faulted .nullPointer ∧
      ¬ Outcome.Throughout step MovesFreely (init : Objects ℕ)
        [.construct 0 3, .moveConstruct 1 0, .destroy 0] := by
  refine ⟨?_, rfl, fun h => ?_⟩
  · refine (Outcome.throughout_cons_returned rfl _).2 ⟨rfl, ?_⟩
    refine (Outcome.throughout_cons_returned rfl _).2 ⟨⟨rfl, by rintro ⟨⟩⟩, ?_⟩
    exact ⟨by rintro ⟨⟩, fun _ _ => trivial⟩
  · obtain ⟨⟨s, hstep, -⟩, -⟩ := (h.2 _ rfl).2 _ rfl
    cases hstep

end Runs

/-! ## Programs that destroy all their objects -/

/-- The call leaves an object without a pool. -/
def MakesEmpty : ObjectOp τ → Prop
  | .default _ | .moveConstruct _ _ => True
  | .construct _ _ | .execute _ _ | .destroy _ => False

section Complete

variable {s s' : Objects τ} {op : ObjectOp τ} {ops : List (ObjectOp τ)} {o : ℕ}

/-- An empty object stays, and stays empty. -/
lemma empty_stays (hpossible : s.Possible op) (hstep : s.step op = .returned s')
    (ho : s.object o = some none) : s'.object o = some none := by
  have hne : ∀ o', s.object o' = none → o ≠ o' := by
    rintro o' ho' rfl
    rw [ho] at ho'
    cases ho'
  cases op with
  | default o' =>
    obtain rfl := Outcome.returned.inj hstep
    exact (s.setObject_of_ne (hne o' hpossible) _).trans ho
  | construct o' threadCount =>
    obtain rfl := Outcome.returned.inj hstep
    exact (s.setObject_of_ne (hne o' hpossible) _).trans ho
  | moveConstruct o' source =>
    obtain ⟨data, -, rfl⟩ := moveConstruct_returned hstep
    rw [move, setObject_of_ne _ (hne o' hpossible.1)]
    by_cases hsource : o = source
    · rw [hsource, setObject_self]
    · exact (s.setObject_of_ne hsource _).trans ho
  | execute o' task =>
    obtain ⟨p, -, rfl⟩ := execute_returned hstep
    exact ho
  | destroy o' =>
    obtain ⟨p, hp, rfl⟩ := destroy_returned hstep
    have hother : o ≠ o' := by
      rintro rfl
      rw [Holds, ho] at hp
      cases hp
    exact (s.setObject_of_ne hother _).trans ho

/-- Calls that make an object empty leave one behind. -/
lemma exists_empty (hempty : MakesEmpty op) (hpossible : s.Possible op)
    (hstep : s.step op = .returned s') : ∃ o, s'.object o = some none := by
  cases op with
  | default o =>
    obtain rfl := Outcome.returned.inj hstep
    exact ⟨o, s.setObject_self o _⟩
  | moveConstruct o source =>
    have hne : source ≠ o := by
      rintro rfl
      exact hpossible.2 hpossible.1
    obtain ⟨data, -, rfl⟩ := moveConstruct_returned hstep
    exact ⟨source, by rw [move, setObject_of_ne _ hne, setObject_self]⟩
  | construct o threadCount => exact hempty.elim
  | execute o task => exact hempty.elim
  | destroy o => exact hempty.elim

/-- Where nothing is made empty, nothing gets empty. -/
lemma full_stays (hfull : ∀ o, s.object o ≠ some none) (hplain : ¬ MakesEmpty op)
    (hstep : s.step op = .returned s') (o : ℕ) : s'.object o ≠ some none := by
  have hset : ∀ o' data, data ≠ some none → (s.setObject o' data).object o ≠ some none := by
    intro o' data hdata
    by_cases ho : o = o'
    · rw [ho, setObject_self]
      exact hdata
    · rw [setObject_of_ne s ho]
      exact hfull o
  cases op with
  | default o' => exact absurd trivial hplain
  | moveConstruct o' source => exact absurd trivial hplain
  | construct o' threadCount =>
    obtain rfl := Outcome.returned.inj hstep
    exact hset o' _ (by simp)
  | execute o' task =>
    obtain ⟨p, -, rfl⟩ := execute_returned hstep
    exact hfull o
  | destroy o' =>
    obtain ⟨p, -, rfl⟩ := destroy_returned hstep
    exact hset o' none (by simp)

/-- Whoever destroys all objects in the end has made no empty one on the way. -/
theorem constructs_of_allDestroyed (hops : Outcome.Throughout step Possible s ops)
    (hrun : Outcome.run step s ops = .returned s') (hall : ∀ o, s'.object o = none) :
    ∀ op ∈ ops, ¬ MakesEmpty op := by
  induction ops generalizing s with
  | nil => simp
  | cons op ops ih =>
    obtain ⟨s₁, hstep, hrest⟩ := Outcome.run_cons_eq_returned.1 hrun
    have hops' := hops.2 s₁ hstep
    intro op' hop'
    rcases List.mem_cons.1 hop' with rfl | hop'
    · intro hempty
      obtain ⟨o, ho⟩ := exists_empty hempty hops.1 hstep
      have hstays := hops'.preserves (fun s => s.object o = some none)
        (fun _ _ _ ho hpossible hstep => empty_stays hpossible hstep ho) ho hrest
      rw [hall o] at hstays
      cases hstays
    · exact ih hops' hrest op' hop'

/-- Objects that are made with pools of their own and never moved from are destroyed as they
should be. -/
theorem movesFreely_of_constructs (hops : Outcome.Throughout step Possible (init : Objects τ) ops)
    (hconstructs : ∀ op ∈ ops, ¬ MakesEmpty op) :
    Outcome.Throughout step MovesFreely (init : Objects τ) ops := by
  have hplain : Outcome.Throughout step (fun _ op => ¬ MakesEmpty op) (init : Objects τ) ops :=
    Outcome.throughout_of_forall fun op hop _ => hconstructs op hop
  have hfull : ∀ o, (init : Objects τ).object o ≠ some none := fun o h => by cases h
  refine (movesFreely_iff hops).2 ((hops.and hplain).imp (fun s => ∀ o, s.object o ≠ some none)
    ?_ ?_ hfull)
  · rintro s op hs ⟨hpossible, -⟩ o rfl
    obtain ⟨data, hdata⟩ := Option.ne_none_iff_exists'.1 hpossible
    cases data with
    | none => exact absurd hdata (hs o)
    | some p => exact ⟨p, hdata⟩
  · rintro s op s' hs ⟨-, hplain⟩ hstep
    exact full_stays hs hplain hstep

end Complete

end Objects

/-! ## The pools behind the objects -/

/-- Behind the data stands a pool that its threads can get to, with no call on it going on. -/
def ResInfo.Backed {τ : Type*} (r : ResInfo τ) : Prop :=
  ∃ pool : Pool τ r.threadCount, Relation.ReflTransGen Step (Pool.init r.threadCount) pool ∧
    pool.enqueued = r.enqueued ∧ pool.isShutdown = r.isShutdown ∧
    (r.isShutdown = false → pool.destructor = .notStarted) ∧ ∀ thread, pool.owes thread = false

namespace ResInfo

variable {τ : Type*} {r : ResInfo τ}

lemma init_backed (threadCount : ℕ) : (init threadCount : ResInfo τ).Backed :=
  ⟨Pool.init threadCount, .refl, rfl, rfl, fun _ => rfl, fun _ => rfl⟩

/-- `execute` puts the task in and notifies a worker. -/
lemma Backed.emplace (h : r.Backed) (hopen : r.isShutdown = false) (task : τ) :
    (r.emplace task).Backed := by
  obtain ⟨pool, hreach, hqueue, hshut, hdestructor, howes⟩ := h
  obtain ⟨worker, hnotify⟩ := CondVar.exists_notifyOne wake pool.worker
  have hput := hreach.tail (.execute task (hdestructor hopen) (howes 0))
  have howed : Function.update pool.owes 0 true 0 = true :=
    Function.update_self 0 true pool.owes
  refine ⟨_, hput.tail (@Step.notify τ _ _ 0 worker howed hnotify), ?_, hshut, hdestructor,
    fun thread => ?_⟩
  · show pool.enqueued ++ [task] = r.enqueued ++ [task]
    rw [hqueue]
  · show Function.update (Function.update pool.owes 0 true) 0 false thread = false
    by_cases hthread : thread = 0
    · rw [hthread, Function.update_self]
    · rw [Function.update_of_ne hthread, Function.update_of_ne hthread, howes]

/-- The destructor sets the flag and notifies all workers. -/
lemma Backed.shutDown (h : r.Backed) (hopen : r.isShutdown = false) (o : ℕ) :
    (r.shutDown o).Backed := by
  obtain ⟨pool, hreach, hqueue, hshut, hdestructor, howes⟩ := h
  have hflag := hreach.tail (.shutDown (hdestructor hopen))
  refine ⟨_, hflag.tail (.notifyAll rfl), hqueue, rfl, fun hfalse => ?_, howes⟩
  cases hfalse

end ResInfo

namespace Objects

section Backing

variable {τ : Type*} {s s' : Objects τ} {ops : List (ObjectOp τ)}

lemma setResInfo_backed {p : ℕ} {r : ResInfo τ} (hr : r.Backed)
    (h : ∀ p' < s.made, (s.resInfo p').Backed) : ∀ p' < s.made,
      ((s.setResInfo p r).resInfo p').Backed := by
  intro p' hp'
  by_cases heq : p' = p
  · rw [heq, setResInfo_self]
    exact hr
  · rw [setResInfo_of_ne heq]
    exact h p' hp'

lemma step_backed (hs : s.Consistent) (h : ∀ p < s.made, (s.resInfo p).Backed)
    {op : ObjectOp τ} (hstep : s.step op = .returned s') :
    ∀ p < s'.made, (s'.resInfo p).Backed := by
  have hopen : ∀ o p, s.Holds o p → (s.resInfo p).Backed ∧ (s.resInfo p).isShutdown = false :=
    fun o p hp => ⟨h p (hs.made o p hp), ((hs.told p (hs.made o p hp)).of_holds hp).2.2⟩
  cases op with
  | default o =>
    obtain rfl := Outcome.returned.inj hstep
    exact h
  | construct o threadCount =>
    obtain rfl := Outcome.returned.inj hstep
    intro p hp
    by_cases hnew : p = s.made
    · rw [hnew, make_resInfo_self]
      exact ResInfo.init_backed threadCount
    · rw [make_resInfo_of_ne s o threadCount hnew]
      exact h p (lt_of_le_of_ne (Nat.lt_succ_iff.1 hp) hnew)
  | moveConstruct o source =>
    obtain ⟨data, -, rfl⟩ := moveConstruct_returned hstep
    exact h
  | execute o task =>
    obtain ⟨p, hp, rfl⟩ := execute_returned hstep
    obtain ⟨hbacked, hfalse⟩ := hopen o p hp
    exact setResInfo_backed (hbacked.emplace hfalse task) h
  | destroy o =>
    obtain ⟨p, hp, rfl⟩ := destroy_returned hstep
    obtain ⟨hbacked, hfalse⟩ := hopen o p hp
    exact setResInfo_backed (s := s.setObject o none) (hbacked.shutDown hfalse o) h

/-- What a run of calls leaves of a pool is what the threads of that pool can come to. -/
theorem exists_pool (hops : Outcome.Throughout step Possible (init : Objects τ) ops)
    (hrun : Outcome.run step init ops = .returned s) {p : ℕ} (hp : p < s.made) :
    (s.resInfo p).Backed := by
  have hinit : (init : Objects τ).Consistent ∧ ∀ p < (init : Objects τ).made,
      ((init : Objects τ).resInfo p).Backed :=
    ⟨Consistent.init, fun p hp => absurd hp (Nat.not_lt_zero p)⟩
  refine (hops.preserves (fun s => s.Consistent ∧ ∀ p < s.made, (s.resInfo p).Backed) ?_ hinit
    hrun).2 p hp
  rintro s op s' ⟨hs, hbacked⟩ hpossible hstep
  have hholder : s.DestroysHolder op := by
    rintro o rfl
    obtain ⟨p, hp, -⟩ := destroy_returned hstep
    exact ⟨p, hp⟩
  obtain ⟨s₁, hstep₁, hs₁, -⟩ := hs.step hpossible hholder
  obtain rfl := Outcome.returned.inj (hstep₁.symm.trans hstep)
  exact ⟨hs₁, step_backed hs hbacked hstep⟩

end Backing

end Objects

end FixedThreadPool
