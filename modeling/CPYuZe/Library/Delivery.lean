import Mathlib.Data.List.Basic

/-!
# Streams that are delivered in blocks

A stream reaches its reader in blocks (`StreamBlock`), which are never empty, and a call that asks
for some of it may fail instead.  `Delivery` is one such event, and the events to come are a list,
whose end is the end of the stream.

`Delivery.recv` takes at most as many letters as asked for from the next block and leaves the
others of this block for later; `Delivery.peek` leaves them all.  `Delivery.before` are the letters
that arrive before a failure of a given kind.  A reader that asks for one letter at a time sees
these letters one by one (`recv_one_cons`), and one that asks for enough sees the blocks
(`recv_brings`).
-/

variable {α ε : Type*}

/-- What arrives at once. -/
structure StreamBlock (α : Type*) where
  first : α
  others : List α
  deriving DecidableEq, Repr

def StreamBlock.letters (b : StreamBlock α) : List α := b.first :: b.others

lemma StreamBlock.letters_ne_nil (b : StreamBlock α) : b.letters ≠ [] := List.cons_ne_nil _ _

/-- What a call that asks for letters meets. -/
inductive Delivery (ε : Type*) (α : Type*)
  | fails (e : ε)
  | brings (b : StreamBlock α)
  deriving DecidableEq, Repr

namespace Delivery

/-- The letters that are left of a block stay in front of the others. -/
def unread : List α → List (Delivery ε α) → List (Delivery ε α)
  | [], rest => rest
  | a :: as, rest => .brings ⟨a, as⟩ :: rest

/-- A call that asks for `size` letters.  At the end of the stream it gets none. -/
def recv (size : ℕ) : List (Delivery ε α) → Except ε (List α) × List (Delivery ε α)
  | [] => (.ok [], [])
  | .fails e :: rest => (.error e, rest)
  | .brings b :: rest => (.ok (b.letters.take size), unread (b.letters.drop size) rest)

/-- The same call when it leaves the letters where they are. -/
def peek (size : ℕ) : List (Delivery ε α) → Except ε (List α) × List (Delivery ε α)
  | [] => (.ok [], [])
  | .fails e :: rest => (.error e, rest)
  | .brings b :: rest => (.ok (b.letters.take size), .brings b :: rest)

/-- The letters that arrive before a failure that is fatal. -/
def before (fatal : ε → Bool) : List (Delivery ε α) → List α
  | [] => []
  | .fails e :: rest => if fatal e then [] else before fatal rest
  | .brings b :: rest => b.letters ++ before fatal rest

/-- The letters that arrive before any failure. -/
def upToFailure (incoming : List (Delivery ε α)) : List α := before (fun _ => true) incoming

/-- All the letters to come. -/
def arriving (incoming : List (Delivery ε α)) : List α := before (fun _ => false) incoming

/-- No call fails. -/
def Unfailing (incoming : List (Delivery ε α)) : Prop := ∀ e, .fails e ∉ incoming

variable {fatal : ε → Bool} {incoming : List (Delivery ε α)}

@[simp] lemma before_unread (as : List α) (rest : List (Delivery ε α)) :
    before fatal (unread as rest) = as ++ before fatal rest := by
  cases as <;> rfl

lemma arriving_unread (as : List α) (rest : List (Delivery ε α)) :
    arriving (unread as rest) = as ++ arriving rest :=
  before_unread as rest

lemma arriving_brings (b : StreamBlock α) (rest : List (Delivery ε α)) :
    arriving (.brings b :: rest) = b.letters ++ arriving rest := rfl

lemma length_unread_le (as : List α) (rest : List (Delivery ε α)) :
    (unread as rest).length ≤ rest.length + 1 := by
  cases as with
  | nil => exact Nat.le_succ _
  | cons a as => exact Nat.le_refl _

lemma Unfailing.unread {rest : List (Delivery ε α)} (h : Unfailing rest) (as : List α) :
    Unfailing (unread as rest) := by
  cases as with
  | nil => exact h
  | cons a as =>
    intro e hmem
    rcases List.mem_cons.1 hmem with heq | hrest
    · exact absurd heq (by simp)
    · exact h e hrest

lemma Unfailing.tail {d : Delivery ε α} (h : Unfailing (d :: incoming)) : Unfailing incoming :=
  fun e hmem => h e (List.mem_cons_of_mem d hmem)

/-- The letters of blocks. -/
lemma before_map_append (blocks : List (StreamBlock α)) (rest : List (Delivery ε α)) :
    before fatal (blocks.map brings ++ rest) =
      blocks.flatMap StreamBlock.letters ++ before fatal rest := by
  induction blocks with
  | nil => rfl
  | cons b blocks ih =>
    rw [List.map_cons, List.cons_append, before, ih, List.flatMap_cons, List.append_assoc]

/-- A call that asks for one letter gets the next one before a failure, if there is one. -/
lemma recv_one_cons {a : α} {as : List α} (h : upToFailure incoming = a :: as) :
    ∃ incoming', recv 1 incoming = (.ok [a], incoming') ∧ peek 1 incoming = (.ok [a], incoming) ∧
      upToFailure incoming' = as ∧ (Unfailing incoming → Unfailing incoming') := by
  cases incoming with
  | nil => exact absurd h (List.cons_ne_nil a as).symm
  | cons d rest =>
    cases d with
    | fails e => exact absurd h (List.cons_ne_nil a as).symm
    | brings b =>
      obtain ⟨rfl, has⟩ := List.cons_eq_cons.1 h
      refine ⟨unread b.others rest, rfl, rfl, ?_, fun hnone => hnone.tail.unread _⟩
      rw [upToFailure, before_unread]
      exact has

/-- There is no letter before a failure. -/
lemma recv_one_nil (h : upToFailure incoming = []) :
    (∃ e, recv 1 incoming = (.error e, incoming.tail)) ∧
        (∃ e, peek 1 incoming = (.error e, incoming.tail)) ∨
      incoming = [] := by
  cases incoming with
  | nil => exact .inr rfl
  | cons d rest =>
    cases d with
    | fails e => exact .inl ⟨⟨e, rfl⟩, ⟨e, rfl⟩⟩
    | brings b => exact absurd h (List.append_ne_nil_of_left_ne_nil b.letters_ne_nil _)

lemma recv_ne_error (h : Unfailing incoming) (size : ℕ) (e : ε) :
    recv size incoming ≠ (.error e, incoming.tail) := by
  cases incoming with
  | nil => exact fun heq => absurd (Prod.mk.inj heq).1 (by simp)
  | cons d rest =>
    cases d with
    | fails e' => exact absurd List.mem_cons_self (h e')
    | brings b => exact fun heq => absurd (Prod.mk.inj heq).1 (by simp)

/-- A call that asks for enough gets a whole block. -/
lemma recv_brings {size : ℕ} {b : StreamBlock α} (h : b.letters.length ≤ size)
    (rest : List (Delivery ε α)) : recv size (.brings b :: rest) = (.ok b.letters, rest) := by
  rw [recv, List.take_of_length_le h, List.drop_of_length_le h]
  rfl

end Delivery
