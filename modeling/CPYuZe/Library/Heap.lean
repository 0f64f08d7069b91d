import CPYuZe.Library.CString

/-!
# Allocations of unknown content and size

`malloc` hands out memory whose content the program cannot rely on, and at least as much of it as
was asked for.  A `Heap` carries both as an oracle: `fresh k i` is byte `i` of the `k`-th
allocation before anything is stored in it, and `spare k` is by how many bytes that allocation is
larger than what was asked for.  So a statement about every heap is a statement about every
content and about every way of rounding sizes up.

A `Block` is one allocation with all of its bytes, the spare ones included.  There is no store
outside it: `Block.store` answers nothing there.  Reading a block as a C string gives a value only
when the terminating zero is inside the allocation.
-/

/-- One allocation: the bytes that belong to it. -/
structure Block where
  bytes : List UInt8
  deriving DecidableEq, Repr

namespace Block

/-- The C string in the block, when it is terminated inside the allocation. -/
def read (b : Block) : Option (List UInt8) :=
  if 0 ∈ b.bytes then some (cstr b.bytes) else none

lemma read_append_zero {bytes : List UInt8} (h : 0 ∉ bytes) (rest : List UInt8) :
    (Block.mk (bytes ++ 0 :: rest)).read = some bytes := by
  simp [read, cstr_append_zero h]

/-- A block read as `bytes` has its first zero right behind them. -/
lemma read_append_cons {bytes : List UInt8} (h : 0 ∉ bytes) (c : UInt8) (rest : List UInt8) :
    (Block.mk (bytes ++ c :: rest)).read = some bytes ↔ c = 0 := by
  constructor
  · intro hr
    by_contra hc
    have hmem : (0 : UInt8) ∉ bytes ++ [c] := by simp [h, Ne.symm hc]
    have hpre : bytes ++ [c] <+: cstr (bytes ++ c :: rest) :=
      prefix_cstr_iff.2 ⟨⟨rest, by simp⟩, hmem⟩
    obtain ⟨-, hread⟩ := Option.ite_none_right_eq_some.1 hr
    rw [Option.some.inj hread] at hpre
    have hlen := hpre.length_le
    simp at hlen
  · rintro rfl
    exact read_append_zero h rest

/-- Copy bytes to the front of the block. -/
def overwrite (b : Block) (src : List UInt8) : Block :=
  ⟨src ++ b.bytes.drop src.length⟩

/-- `b[i] = v`, if that is inside the block. -/
def store (b : Block) (i : ℕ) (v : UInt8) : Option Block :=
  if i < b.bytes.length then some ⟨b.bytes.set i v⟩ else none

end Block

/-- The allocator's state: the content of allocations still to come, by how much they are larger
than what will be asked for, and how many there have been. -/
structure Heap where
  fresh : ℕ → ℕ → UInt8
  spare : ℕ → ℕ
  next : ℕ

namespace Heap

/-- A block of at least `n` bytes of unknown content. -/
def malloc (h : Heap) (n : ℕ) : Block × Heap :=
  (⟨(List.range (n + h.spare h.next)).map (h.fresh h.next)⟩, { h with next := h.next + 1 })

/-- The heap `n` allocations later. -/
def skip (h : Heap) (n : ℕ) : Heap := { h with next := h.next + n }

@[simp] lemma skip_fresh (h : Heap) (n : ℕ) : (h.skip n).fresh = h.fresh := rfl

@[simp] lemma skip_spare (h : Heap) (n : ℕ) : (h.skip n).spare = h.spare := rfl

@[simp] lemma skip_next (h : Heap) (n : ℕ) : (h.skip n).next = h.next + n := rfl

@[simp] lemma skip_zero (h : Heap) : h.skip 0 = h := rfl

@[simp] lemma skip_skip (h : Heap) (m n : ℕ) : (h.skip m).skip n = h.skip (m + n) := by
  simp only [skip, Nat.add_assoc]

/-- The bytes of the next allocation from the `n`-th on, when `n` have been asked for. -/
def slack (h : Heap) (n : ℕ) : List UInt8 :=
  (List.range (h.spare h.next)).map fun i => h.fresh h.next (n + i)

@[simp] lemma length_slack (h : Heap) (n : ℕ) : (h.slack n).length = h.spare h.next := by
  simp [slack]

/-- A new block is what was asked for and the spare bytes. -/
lemma malloc_bytes (h : Heap) (n : ℕ) :
    (h.malloc n).1.bytes = (List.range n).map (h.fresh h.next) ++ h.slack n := by
  simp [malloc, slack, List.range_add, List.map_map, Function.comp_def]

/-- A new block of `n + 1` bytes with `n` bytes copied to its front goes on with the one byte
nothing was stored in, and the spare ones. -/
lemma malloc_overwrite (h : Heap) (src : List UInt8) :
    ((h.malloc (src.length + 1)).1.overwrite src).bytes =
      src ++ h.fresh h.next src.length :: h.slack (src.length + 1) := by
  simp [Block.overwrite, malloc_bytes, List.range_succ]

/-- The next allocation with a string in it and a zero one byte past its end.  In between stands
what the allocation held before. -/
def copied (h : Heap) (src : List UInt8) : Block :=
  ⟨src ++ h.fresh h.next src.length :: 0 :: (h.slack (src.length + 1)).tail⟩

/-- Past its end a string is terminated exactly if there is a zero in between already. -/
lemma read_copied (h : Heap) {src : List UInt8} (hsrc : 0 ∉ src) :
    (h.copied src).read = some src ↔ h.fresh h.next src.length = 0 :=
  Block.read_append_cons hsrc _ _

/-- The next allocation with a string in it and the terminating zero behind that. -/
def terminated (h : Heap) (src : List UInt8) : Block := ⟨src ++ 0 :: h.slack (src.length + 1)⟩

lemma zero_mem_terminated (h : Heap) (src : List UInt8) : 0 ∈ (h.terminated src).bytes := by
  simp [terminated]

lemma cstr_terminated (h : Heap) {src : List UInt8} (hsrc : 0 ∉ src) :
    cstr (h.terminated src).bytes = src :=
  cstr_append_zero hsrc _

lemma read_terminated (h : Heap) {src : List UInt8} (hsrc : 0 ∉ src) :
    (h.terminated src).read = some src :=
  Block.read_append_zero hsrc _

end Heap
