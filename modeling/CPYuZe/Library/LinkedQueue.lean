import Mathlib.Tactic

/-!
# Queues made of linked cells

Memory is a partial function from addresses to cells, and a pointer is an address or nothing.
`Leads cells p as q` says that from the pointer `p` on stand the cells with the addresses and
values `as`, and that the last of them leads to `q`.  A queue keeps a pointer to its first cell
and one to its last (`IsQueue`).  `IsQueue.append` is the way an element gets in: a new cell
behind the last one.
-/

namespace LinkedQueue

/-- A cell of a singly linked list. -/
structure Cell (α : Type*) where
  value : α
  next : Option ℕ
  deriving DecidableEq, Repr

section Leading

variable {α : Type*} {cells : ℕ → Option (Cell α)} {as bs : List (ℕ × α)} {p q : Option ℕ}

/-- The cells from `p` on, up to the pointer `q`. -/
def Leads (cells : ℕ → Option (Cell α)) : Option ℕ → List (ℕ × α) → Option ℕ → Prop
  | p, [], q => p = q
  | p, (a, x) :: as, q => p = some a ∧ ∃ next, cells a = some ⟨x, next⟩ ∧ Leads cells next as q

lemma leads_append : Leads cells p (as ++ bs) q ↔ ∃ r, Leads cells p as r ∧ Leads cells r bs q := by
  induction as generalizing p with
  | nil => simp [Leads]
  | cons a as ih =>
    simp only [List.cons_append, Leads, ih]
    constructor
    · rintro ⟨hp, next, hcell, r, hr, hq⟩
      exact ⟨r, ⟨hp, next, hcell, hr⟩, hq⟩
    · rintro ⟨r, ⟨hp, next, hcell, hr⟩, hq⟩
      exact ⟨hp, next, hcell, r, hr, hq⟩

/-- A store into another cell does not change a path. -/
lemma Leads.update (h : Leads cells p as q) {a : ℕ} (ha : a ∉ as.map Prod.fst)
    (c : Option (Cell α)) : Leads (Function.update cells a c) p as q := by
  induction as generalizing p with
  | nil => exact h
  | cons b as ih =>
    obtain ⟨hp, next, hcell, hrest⟩ := h
    simp only [List.map_cons, List.mem_cons, not_or] at ha
    refine ⟨hp, next, ?_, ih hrest ha.2⟩
    rw [Function.update_of_ne (Ne.symm ha.1)]
    exact hcell

end Leading

section Queue

variable {α : Type*} {cells : ℕ → Option (Cell α)} {bound : ℕ} {head tail : Option ℕ}
  {as : List (ℕ × α)}

/-- `head` and `tail` describe the queue of the cells `as`, all of them below `bound`. -/
structure IsQueue (cells : ℕ → Option (Cell α)) (bound : ℕ) (head tail : Option ℕ)
    (as : List (ℕ × α)) : Prop where
  path : Leads cells head as none
  nodup : (as.map Prod.fst).Nodup
  lt_bound : ∀ a ∈ as.map Prod.fst, a < bound
  tail_eq : tail = as.getLast?.map Prod.fst

lemma isQueue_nil (cells : ℕ → Option (Cell α)) (bound : ℕ) :
    IsQueue cells bound none none ([] : List (ℕ × α)) :=
  ⟨rfl, List.nodup_nil, by simp, rfl⟩

lemma IsQueue.eq_nil_iff (h : IsQueue cells bound head tail as) : as = [] ↔ head = none := by
  cases as with
  | nil => exact iff_of_true rfl h.path
  | cons a as =>
    refine iff_of_false (List.cons_ne_nil _ _) ?_
    rw [h.path.1]
    exact Option.some_ne_none _

/-- The first element: a cell that both pointers lead to. -/
lemma IsQueue.singleton (cells : ℕ → Option (Cell α)) (bound : ℕ) (x : α) :
    IsQueue (Function.update cells bound (some ⟨x, none⟩)) (bound + 1) (some bound) (some bound)
      [(bound, x)] :=
  ⟨⟨rfl, none, Function.update_self _ _ _, rfl⟩, List.nodup_singleton _, by simp, rfl⟩

/-- A queue that is not empty has a last cell, which leads nowhere. -/
lemma IsQueue.last_cell (h : IsQueue cells bound head tail as) (hne : as ≠ []) :
    ∃ init t x, as = init ++ [(t, x)] ∧ tail = some t ∧ cells t = some ⟨x, none⟩ := by
  rcases List.eq_nil_or_concat as with rfl | ⟨init, ⟨t, x⟩, rfl⟩
  · exact absurd rfl hne
  · have hpath := h.path
    rw [List.concat_eq_append, leads_append] at hpath
    obtain ⟨r, -, -, next, hcell, hnext⟩ := hpath
    cases hnext
    refine ⟨init, t, x, List.concat_eq_append, ?_, hcell⟩
    rw [h.tail_eq, List.concat_eq_append, List.getLast?_append]
    rfl

/-- A further element: a new cell that the last one is made to lead to. -/
lemma IsQueue.append {init : List (ℕ × α)} {t : ℕ} {y : α}
    (h : IsQueue cells bound head (some t) (init ++ [(t, y)])) (x : α) :
    IsQueue (Function.update (Function.update cells bound (some ⟨x, none⟩)) t
      (some ⟨y, some bound⟩)) (bound + 1) head (some bound)
      (init ++ [(t, y)] ++ [(bound, x)]) := by
  have hlt := h.lt_bound
  have hnodup := h.nodup
  simp only [List.map_append, List.map_cons, List.map_nil] at hlt hnodup
  have hnew : bound ∉ (init ++ [(t, y)]).map Prod.fst := fun hmem =>
    lt_irrefl bound (h.lt_bound bound hmem)
  have htb : t < bound := hlt t (by simp)
  have hinit : t ∉ init.map Prod.fst := by
    rw [List.nodup_append] at hnodup
    exact fun hmem => hnodup.2.2 t hmem t (by simp) rfl
  refine ⟨?_, ?_, ?_, ?_⟩
  · -- the cells before the last one are neither of the two that are stored to
    obtain ⟨r, hfront, hr, -⟩ := leads_append.1 h.path
    have hnew' : bound ∉ init.map Prod.fst := fun hmem =>
      hnew (by rw [List.map_append]; exact List.mem_append_left _ hmem)
    rw [List.append_assoc]
    refine leads_append.2 ⟨r, (hfront.update hnew' _).update hinit _, hr, some bound,
      Function.update_self _ _ _, rfl, none, ?_, rfl⟩
    rw [Function.update_of_ne (Nat.ne_of_gt htb), Function.update_self]
  · rw [List.map_append, List.nodup_append]
    refine ⟨h.nodup, List.nodup_singleton _, ?_⟩
    rintro a ha b hb rfl
    have hab : a = bound := by simpa using hb
    rw [hab] at ha
    exact hnew ha
  · intro a ha
    rw [List.map_append, List.mem_append] at ha
    rcases ha with ha | ha
    · exact Nat.lt_succ_of_lt (h.lt_bound a ha)
    · rw [List.map_cons, List.map_nil, List.mem_singleton] at ha
      omega
  · rw [List.getLast?_append]
    rfl

end Queue

end LinkedQueue
