import CPYuZe.Library.Outcome

/-!
# The stock factory

`StockFactory` is to hand out one `Stock` per key and to keep only weak pointers to them; when the
last `shared_ptr` to a `Stock` goes, its deleter takes the entry out of the map, if the factory is
still there.  `get` looks the key up and makes a `Stock` if there is none, but neither stores a
weak pointer to it nor returns it: the entry stays empty, the caller gets `nullptr`, and the new
`Stock` goes behind the lock, at the end of the call that has made it.

A step of `Op` is what a thread does under the mutex or without it in one piece.  Stocks are
numbered in the order in which they are made; a `shared_ptr` that a caller has been given is in
`held` for as long as the caller keeps it.

`sharesStock_iff` says that callers are given what they are promised exactly as long as they do
not call `get`.
-/

namespace StockFactory

/-- A `weak_ptr` or a `shared_ptr` to a `Stock`, or an empty one. -/
abbrev Pointer := Option ℕ

/-- What a thread is in the middle of. -/
inductive ThreadPc
  | outside
  /-- It has let the last `shared_ptr` to a `Stock` go and is to call `weakDeleteCallback`. -/
  | callback (stock : ℕ)
  /-- It is in `removeStock` and has yet to take the lock. -/
  | removing (stock : ℕ)

structure State where
  /-- `stocks_`. -/
  stocks : String → Option Pointer
  /-- `key_` of every `Stock`. -/
  key : ℕ → String
  /-- The number of stocks that have been made. -/
  made : ℕ
  /-- `use_count()` of the pointers to each `Stock`. -/
  useCount : ℕ → ℕ
  /-- The pointers that callers have been given and keep, with the key they asked for. -/
  held : List (String × Pointer)
  thread : ℕ → ThreadPc
  /-- Whether the factory's owner keeps it. -/
  owned : Bool
  /-- The number of `shared_ptr`s to the factory. -/
  factoryCount : ℕ

namespace State

def init : State where
  stocks _ := none
  key _ := ""
  made := 0
  useCount _ := 0
  held := []
  thread _ := .outside
  owned := true
  factoryCount := 1

def setThread (s : State) (thread : ℕ) (pc : ThreadPc) : State :=
  { s with thread := Function.update s.thread thread pc }

/-- `lock()` of a weak pointer: empty if there is no `shared_ptr` left. -/
def lock (s : State) (weak : Pointer) : Pointer :=
  match weak with
  | some stock => if s.useCount stock = 0 then none else some stock
  | none => none

/-- A thread lets a `shared_ptr` go. -/
def drop (s : State) (thread : ℕ) : Pointer → State
  | none => s
  | some stock =>
    let s := { s with useCount := Function.update s.useCount stock (s.useCount stock - 1) }
    if s.useCount stock = 0 then s.setThread thread (.callback stock) else s

/-- `pStock.reset(new Stock(key), …)`. -/
def newStock (s : State) (key : String) : State :=
  { s with
    key := Function.update s.key s.made key
    made := s.made + 1
    useCount := Function.update s.useCount s.made 1 }

/-- `stocks_[key]` makes an entry if there is none. -/
def entry (s : State) (key : String) : Pointer := (s.stocks key).getD none

/-- `get`: the lock is given back before `pStock` goes. -/
def get (s : State) (thread : ℕ) (key : String) : State :=
  let weak := s.entry key
  let s := { s with stocks := Function.update s.stocks key (some weak) }
  let s := { s with held := (key, none) :: s.held }
  match s.lock weak with
  | some stock =>
    ({ s with useCount := Function.update s.useCount stock (s.useCount stock + 1) }).drop
      thread (some stock)
  | none => (s.newStock key).drop thread (some s.made)

/-- A caller lets go of a pointer that `get` has returned. -/
def release (s : State) (thread : ℕ) (result : String × Pointer) : State :=
  { s with held := s.held.erase result }.drop thread result.2

/-- `weakDeleteCallback` up to `removeStock`, or to its end if the factory is gone. -/
def weakDeleteCallback (s : State) (thread : ℕ) : State :=
  match s.thread thread with
  | .callback stock =>
    if s.factoryCount = 0 then s.setThread thread .outside
    else { s.setThread thread (.removing stock) with factoryCount := s.factoryCount + 1 }
  | .outside | .removing _ => s

/-- `removeStock` under the lock, and the end of `weakDeleteCallback`. -/
def removeStock (s : State) (thread : ℕ) : State :=
  match s.thread thread with
  | .removing stock =>
    { s.setThread thread .outside with
      stocks := Function.update s.stocks (s.key stock) none
      factoryCount := s.factoryCount - 1 }
  | .outside | .callback _ => s

/-- The owner of the factory lets it go. -/
def destroy (s : State) : State := { s with owned := false, factoryCount := s.factoryCount - 1 }

end State

inductive Op
  | get (thread : ℕ) (key : String)
  | release (thread : ℕ) (result : String × Pointer)
  | weakDeleteCallback (thread : ℕ)
  | removeStock (thread : ℕ)
  | destroy

def next (s : State) : Op → State
  | .get thread key => s.get thread key
  | .release thread result => s.release thread result
  | .weakDeleteCallback thread => s.weakDeleteCallback thread
  | .removeStock thread => s.removeStock thread
  | .destroy => s.destroy

/-- No step goes wrong. -/
def step (s : State) (op : Op) : Outcome Empty State := .returned (next s op)

/-- The steps that can be next; `get` is called through a pointer to the factory. -/
def Possible (s : State) : Op → Prop
  | .get thread _ => s.thread thread = .outside ∧ s.owned = true
  | .release thread result => s.thread thread = .outside ∧ result ∈ s.held
  | .weakDeleteCallback thread => ∃ stock, s.thread thread = .callback stock
  | .removeStock thread => ∃ stock, s.thread thread = .removing stock
  | .destroy => s.owned = true

variable {s s' : State}

/-! ## Spec lemmas -/

namespace State

lemma drop_frame (s : State) (thread : ℕ) (pointer : Pointer) :
    (s.drop thread pointer).stocks = s.stocks ∧ (s.drop thread pointer).held = s.held := by
  cases pointer with
  | none => exact ⟨rfl, rfl⟩
  | some stock =>
    unfold drop
    dsimp only
    split <;> exact ⟨rfl, rfl⟩

/-- Whatever `get` finds, it stores what it has found and returns `nullptr`. -/
lemma get_frame (s : State) (thread : ℕ) (key : String) :
    (s.get thread key).stocks = Function.update s.stocks key (some (s.entry key)) ∧
      (s.get thread key).held = (key, none) :: s.held := by
  unfold get
  dsimp only
  split <;> exact drop_frame _ _ _

lemma weakDeleteCallback_frame (s : State) (thread : ℕ) :
    (s.weakDeleteCallback thread).stocks = s.stocks ∧
      (s.weakDeleteCallback thread).held = s.held := by
  unfold weakDeleteCallback
  split
  · split <;> exact ⟨rfl, rfl⟩
  · exact ⟨rfl, rfl⟩
  · exact ⟨rfl, rfl⟩

lemma removeStock_frame (s : State) (thread : ℕ) :
    (∀ key, (s.removeStock thread).stocks key = s.stocks key ∨
      (s.removeStock thread).stocks key = none) ∧ (s.removeStock thread).held = s.held := by
  unfold removeStock
  split
  · next stock _ =>
    refine ⟨fun key => ?_, rfl⟩
    by_cases hkey : key = s.key stock
    · exact .inr (hkey ▸ Function.update_self _ _ _)
    · exact .inl (Function.update_of_ne hkey _ _)
  · exact ⟨fun _ => .inl rfl, rfl⟩
  · exact ⟨fun _ => .inl rfl, rfl⟩

end State

/-! ## What callers are promised -/

/-- Pointers that are held for one key at a time are to one `Stock`. -/
def HeldAgree (s : State) : Prop :=
  ∀ key stock stock', (key, some stock) ∈ s.held → (key, some stock') ∈ s.held → stock = stock'

/-- The call of `get` that has just come back has returned a `Stock` with its key. -/
def ReturnedStock (s : State) (key : String) : Prop :=
  ∃ stock, s.held.head? = some (key, some stock) ∧ s.key stock = key

/-- What `removeStock` takes out is not the entry of another `Stock` that is alive. -/
def RemovesOwn (s : State) (thread : ℕ) : Prop :=
  ∀ stock other, s.thread thread = .removing stock → s.stocks (s.key stock) = some (some other) →
    other ≠ stock → s.useCount other = 0

def SharesStock (s : State) (op : Op) : Prop :=
  HeldAgree (next s op) ∧
    match op with
    | .get _ key => ReturnedStock (next s op) key
    | .removeStock thread => RemovesOwn s thread
    | .release _ _ | .weakDeleteCallback _ | .destroy => True

/-- The step is not a call of `get`. -/
def NoGet : Op → Prop
  | .get _ _ => False
  | .release _ _ | .weakDeleteCallback _ | .removeStock _ | .destroy => True

/-- No pointer to a `Stock` has been stored or handed out. -/
structure NothingStored (s : State) : Prop where
  stocks : ∀ key stock, s.stocks key ≠ some (some stock)
  held : ∀ result ∈ s.held, result.2 = none

namespace NothingStored

lemma init : NothingStored State.init where
  stocks _ _ := (Option.some_ne_none _).symm
  held _ h := absurd h List.not_mem_nil

/-- Entries may go, and pointers that are held. -/
lemma of_frame (h : NothingStored s)
    (hstocks : ∀ key, s'.stocks key = s.stocks key ∨ s'.stocks key = none)
    (hheld : ∀ result ∈ s'.held, result ∈ s.held) : NothingStored s' where
  stocks key stock hentry := by
    rcases hstocks key with heq | heq
    · exact h.stocks key stock (heq.symm.trans hentry)
    · exact Option.some_ne_none _ (hentry.symm.trans heq)
  held result hresult := h.held result (hheld result hresult)

lemma get (h : NothingStored s) (thread : ℕ) (key : String) :
    NothingStored (s.get thread key) := by
  obtain ⟨hstocks, hheld⟩ := s.get_frame thread key
  refine ⟨fun other stock => ?_, ?_⟩
  · rw [hstocks]
    by_cases hkey : other = key
    · rw [hkey, Function.update_self]
      intro hentry
      unfold State.entry at hentry
      cases hfound : s.stocks key with
      | none => simp [hfound] at hentry
      | some weak =>
        rw [hfound] at hentry
        exact h.stocks key stock (hfound.trans hentry)
    · rw [Function.update_of_ne hkey]
      exact h.stocks other stock
  · rw [hheld]
    exact List.forall_mem_cons.2 ⟨rfl, h.held⟩

lemma next (h : NothingStored s) (op : Op) : NothingStored (next s op) := by
  cases op with
  | get thread key => exact h.get thread key
  | release thread result =>
    obtain ⟨hstocks, hheld⟩ :=
      ({ s with held := s.held.erase result } : State).drop_frame thread result.2
    refine h.of_frame (fun key => .inl (congrFun hstocks key)) fun other hother => ?_
    have heq : (StockFactory.next s (.release thread result)).held = s.held.erase result := hheld
    exact List.mem_of_mem_erase (heq ▸ hother)
  | weakDeleteCallback thread =>
    obtain ⟨hstocks, hheld⟩ := s.weakDeleteCallback_frame thread
    exact h.of_frame (fun key => .inl (congrFun hstocks key)) fun _ hresult => hheld ▸ hresult
  | removeStock thread =>
    obtain ⟨hstocks, hheld⟩ := s.removeStock_frame thread
    exact h.of_frame hstocks fun _ hresult => hheld ▸ hresult
  | destroy => exact h.of_frame (fun _ => .inl rfl) fun _ => id

lemma heldAgree (h : NothingStored s) : HeldAgree s := by
  intro key stock _ hmem _
  exact absurd (h.held _ hmem) (Option.some_ne_none stock)

/-- A step does what is promised exactly if it is not a call of `get`. -/
lemma sharesStock (h : NothingStored s) (op : Op) : SharesStock s op ↔ NoGet op := by
  unfold SharesStock
  rw [and_iff_right (h.next op).heldAgree]
  cases op with
  | get thread key =>
    refine iff_of_false ?_ id
    rintro ⟨stock, hhead, -⟩
    have hnone : (key, (none : Pointer)) = (key, some stock) := by
      have hheld := (s.get_frame thread key).2
      exact Option.some.inj ((congrArg List.head? hheld).symm.trans hhead)
    exact Option.some_ne_none stock (Prod.mk.inj hnone).2.symm
  | removeStock thread =>
    exact iff_of_true (fun stock other _ hentry => absurd hentry (h.stocks _ other)) trivial
  | release thread result => exact Iff.rfl
  | weakDeleteCallback thread => exact Iff.rfl
  | destroy => exact Iff.rfl

end NothingStored

/-- Callers are given what they are promised exactly in the runs in which nobody calls `get`. -/
theorem sharesStock_iff (ops : List Op) :
    Outcome.Throughout step SharesStock State.init ops ↔
      Outcome.Throughout step (fun _ op => NoGet op) State.init ops := by
  refine Outcome.throughout_iff (fun s op hs => hs.sharesStock op) (fun s op s' hs _ hstep => ?_)
    NothingStored.init
  cases hstep
  exact hs.next op

/-- The first call of `get` returns `nullptr`, and its `Stock` is gone before the second one. -/
theorem not_sharesStock_get : ∃ (ops : List Op) (s : State),
    Outcome.Throughout step Possible State.init ops ∧
    Outcome.run step State.init ops = .returned s ∧ s.held = [("IBM", none), ("IBM", none)] ∧
    ¬ Outcome.Throughout step SharesStock State.init ops := by
  refine ⟨[.get 0 "IBM", .weakDeleteCallback 0, .removeStock 0, .get 0 "IBM"], _, ?_, rfl, rfl,
    fun hshares => ?_⟩
  · refine (Outcome.throughout_cons_returned rfl _).2 ⟨⟨rfl, rfl⟩, ?_⟩
    refine (Outcome.throughout_cons_returned rfl _).2 ⟨⟨0, rfl⟩, ?_⟩
    refine (Outcome.throughout_cons_returned rfl _).2 ⟨⟨0, rfl⟩, ?_⟩
    exact (Outcome.throughout_cons_returned rfl _).2 ⟨⟨rfl, rfl⟩, trivial⟩
  · obtain ⟨stock, hhead, -⟩ := hshares.1.2
    cases hhead

end StockFactory
