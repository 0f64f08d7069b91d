import Mathlib.Data.Finmap
import Mathlib.Tactic

/-!
# Finite maps kept in a table of slots

A table of `n` slots keeps a finite map by giving each of its pairs a slot of its own.  Which
slot is left to the program, so the table is looked at through `pairs`, the multiset of what
its slots hold; the map it is to keep is looked at through `graph`, the multiset of its pairs
with the values passed through a function.  The table keeps the map when the two are equal.

`pairs_fill`, `pairs_clear` and `pairs_exchange` say what a store into one slot does to the
pairs, `graph_insert`, `graph_erase` and `graph_overwrite` what the operations on maps do to
the graph.
-/

namespace SlotTable

variable {κ α β σ : Type*}

/-! ## The pairs of a finite map -/

/-- The pairs of the map, with the values passed through `f`. -/
def graph (f : α → β) (m : Finmap fun _ : κ => α) : Multiset (κ × β) :=
  m.entries.map fun e => (e.1, f e.2)

section Graph

variable {f : α → β} {m : Finmap fun _ : κ => α} {k : κ} {a : α}

lemma map_fst_graph : (graph f m).map Prod.fst = m.keys.val := by
  rw [graph, Multiset.map_map]
  rfl

@[simp] lemma card_graph : (graph f m).card = m.keys.card := by
  rw [← Multiset.card_map Prod.fst, map_fst_graph, Finset.card_val]

variable [DecidableEq κ]

lemma mem_graph {b : β} : (k, b) ∈ graph f m ↔ ∃ a, m.lookup k = some a ∧ f a = b := by
  constructor
  · intro h
    obtain ⟨⟨k', a⟩, he, heq⟩ := Multiset.mem_map.1 h
    cases heq
    exact ⟨a, Finmap.lookup_eq_some_iff.2 he, rfl⟩
  · rintro ⟨a, hlookup, rfl⟩
    exact Multiset.mem_map.2 ⟨⟨k, a⟩, Finmap.lookup_eq_some_iff.1 hlookup, rfl⟩

lemma graph_insert (h : k ∉ m) : graph f (m.insert k a) = (k, f a) ::ₘ graph f m := by
  rw [graph, Finmap.entries_insert_of_notMem h, Multiset.map_cons]
  rfl

lemma card_keys_insert (h : k ∉ m) : (m.insert k a).keys.card = m.keys.card + 1 := by
  rw [← card_graph (f := id), graph_insert h, Multiset.card_cons, card_graph]

/-- A map is what is left of it without a key, and the pair of the key. -/
lemma insert_erase (h : m.lookup k = some a) : (m.erase k).insert k a = m := by
  apply Finmap.ext_lookup
  intro k'
  by_cases hk : k' = k
  · rw [hk, Finmap.lookup_insert, h]
  · rw [Finmap.lookup_insert_of_ne _ hk, Finmap.lookup_erase_ne hk]

/-- A pair of the map can be taken out of its graph. -/
lemma graph_erase {b : β} (h : (k, b) ∈ graph f m) :
    graph f m = (k, b) ::ₘ graph f (m.erase k) := by
  obtain ⟨a, hlookup, rfl⟩ := mem_graph.1 h
  rw [← graph_insert Finmap.notMem_erase_self, insert_erase hlookup]

lemma graph_overwrite (a : α) :
    graph f (m.insert k a) = (k, f a) ::ₘ graph f (m.erase k) := by
  rw [graph_erase (mem_graph.2 ⟨a, Finmap.lookup_insert m, rfl⟩)]
  congr 2
  apply Finmap.ext_lookup
  intro k'
  by_cases hk : k' = k
  · rw [hk, Finmap.lookup_erase, Finmap.lookup_erase]
  · rw [Finmap.lookup_erase_ne hk, Finmap.lookup_insert_of_ne _ hk, Finmap.lookup_erase_ne hk]

end Graph

/-! ## The pairs in the slots -/

/-- What the slots below `n` hold, where `read` says what a slot holds, if anything. -/
def pairs (read : σ → Option (κ × β)) (n : ℕ) (slots : ℕ → σ) : Multiset (κ × β) :=
  ↑((List.range n).filterMap fun i => read (slots i))

section Pairs

variable {read : σ → Option (κ × β)} {n i : ℕ} {slots : ℕ → σ} {p q : κ × β} {s : σ}

lemma mem_pairs : p ∈ pairs read n slots ↔ ∃ i < n, read (slots i) = some p := by
  simp [pairs]

lemma card_pairs_le : (pairs read n slots).card ≤ n := by
  have hle := List.length_filterMap_le (fun i => read (slots i)) (List.range n)
  rwa [List.length_range] at hle

/-- With fewer pairs than slots, a slot is free. -/
lemma exists_free (h : (pairs read n slots).card < n) : ∃ i < n, read (slots i) = none := by
  have hlt : ((List.range n).filterMap fun i => read (slots i)).length < (List.range n).length := by
    rwa [List.length_range]
  obtain ⟨i, hi, hfree⟩ := List.length_filterMap_lt_length_iff_exists.1 hlt
  exact ⟨i, List.mem_range.1 hi, hfree⟩

/-- What the slots other than `i` hold. -/
def others (read : σ → Option (κ × β)) (n i : ℕ) (slots : ℕ → σ) : Multiset (κ × β) :=
  ↑(((List.range n).erase i).filterMap fun j => read (slots j))

lemma pairs_split (hi : i < n) :
    pairs read n slots =
      ↑((i :: (List.range n).erase i).filterMap fun j => read (slots j)) :=
  Multiset.coe_eq_coe.2 ((List.perm_cons_erase (List.mem_range.2 hi)).filterMap _)

lemma pairs_of_some (hi : i < n) (h : read (slots i) = some p) :
    pairs read n slots = p ::ₘ others read n i slots := by
  simp only [pairs_split hi, List.filterMap_cons, h]
  rfl

lemma pairs_of_none (hi : i < n) (h : read (slots i) = none) :
    pairs read n slots = others read n i slots := by
  simp only [pairs_split hi, List.filterMap_cons, h]
  rfl

/-- A store into a slot leaves the others alone. -/
lemma others_update : others read n i (Function.update slots i s) = others read n i slots := by
  unfold others
  congr 1
  apply List.filterMap_congr
  intro j hj
  have hne : j ≠ i := (List.nodup_range.mem_erase_iff.1 hj).1
  rw [Function.update_of_ne hne]

/-- A store into a free slot adds what is stored. -/
lemma pairs_fill (hi : i < n) (hfree : read (slots i) = none) (hs : read s = some p) :
    pairs read n (Function.update slots i s) = p ::ₘ pairs read n slots := by
  have hnew : read (Function.update slots i s i) = some p := by simpa using hs
  rw [pairs_of_some hi hnew, others_update, pairs_of_none hi hfree]

/-- Freeing a slot takes away what it held. -/
lemma pairs_clear (hi : i < n) (hheld : read (slots i) = some p) (hs : read s = none) :
    pairs read n slots = p ::ₘ pairs read n (Function.update slots i s) := by
  have hnew : read (Function.update slots i s i) = none := by simpa using hs
  rw [pairs_of_none hi hnew, others_update, pairs_of_some hi hheld]

/-- A store into a slot that is taken exchanges what it held for what is stored. -/
lemma pairs_exchange (hi : i < n) (hheld : read (slots i) = some p) (hs : read s = some q) :
    p ::ₘ pairs read n (Function.update slots i s) = q ::ₘ pairs read n slots := by
  have hnew : read (Function.update slots i s i) = some q := by simpa using hs
  rw [pairs_of_some hi hnew, others_update, pairs_of_some hi hheld, Multiset.cons_swap]

/-- Where no key has two pairs, a key that has one is in one slot only. -/
lemma existsUnique_slot (hkeys : ((pairs read n slots).map Prod.fst).Nodup) {k : κ} {b : β}
    (h : (k, b) ∈ pairs read n slots) :
    ∃! i, i < n ∧ ∃ b, read (slots i) = some (k, b) := by
  obtain ⟨i, hi, hread⟩ := mem_pairs.1 h
  refine ⟨i, ⟨hi, b, hread⟩, ?_⟩
  rintro j ⟨hj, b', hread'⟩
  by_contra hne
  rw [pairs_of_some hi hread, Multiset.map_cons] at hkeys
  apply (Multiset.nodup_cons.1 hkeys).1
  have hmem : (k, b') ∈ others read n i slots := by
    refine List.mem_filterMap.2 ⟨j, ?_, hread'⟩
    exact List.nodup_range.mem_erase_iff.2 ⟨hne, List.mem_range.2 hj⟩
  exact Multiset.mem_map.2 ⟨(k, b'), hmem, rfl⟩

end Pairs

end SlotTable
