import Mathlib.Tactic

/-!
# First in, first out

A `Fifo` is a queue together with its history: everything that was put in, everything that
was taken out, and what is still inside.  The field `conserved` says that nothing was lost,
duplicated or reordered on the way, so a queue that refines a `Fifo` has this for free, and
what is inside is a function of the history (`inside_eq`).
-/

structure Fifo (α : Type*) where
  put : List α
  taken : List α
  inside : List α
  conserved : taken ++ inside = put

namespace Fifo

variable {α : Type*}

def empty : Fifo α := ⟨[], [], [], rfl⟩

/-- Put elements in at the back. -/
def push (q : Fifo α) (xs : List α) : Fifo α where
  put := q.put ++ xs
  taken := q.taken
  inside := q.inside ++ xs
  conserved := by rw [← List.append_assoc, q.conserved]

/-- Take `n` elements out at the front. -/
def pop (q : Fifo α) (n : ℕ) : Fifo α where
  put := q.put
  taken := q.taken ++ q.inside.take n
  inside := q.inside.drop n
  conserved := by rw [List.append_assoc, List.take_append_drop, q.conserved]

lemma inside_eq (q : Fifo α) : q.inside = q.put.drop q.taken.length := by
  rw [← q.conserved, List.drop_left]

end Fifo
