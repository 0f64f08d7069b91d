import CPYuZe.Library.Outcome

/-!
# Faults, errors and system calls

What the other modules of the library share: the ways in which a call of the library can go
wrong, the error numbers it looks at, and what the kernel and the allocator answer.

The answers of the kernel are inputs of the model.  A result of `write()` is either a number
of bytes, cut to what was offered, or an error; a result of `readv()` is the bytes received,
or an error.  An allocator is what it answers to a request for `n` bytes: `NULL`, or memory
of unknown content.

Sizes are natural numbers in the model.  Where the source puts one into an `int` or into a
`size_t` it goes through `toInt` or `toSizeT`.
-/

namespace Yolanda

/-- The ways in which a call of the library goes wrong. -/
inductive Fault
  /-- A load or a store outside the object it is meant for. -/
  | outOfBounds
  /-- A `NULL` pointer, or one that was never set, is followed. -/
  | nullPointer
  /-- An `assert` does not hold. -/
  | assertion
  /-- The process calls `exit`. -/
  | exit
  /-- A pointer is taken for one to an object of another kind. -/
  | wrongObject
  deriving DecidableEq, Repr

/-- A call of the library. -/
abbrev Call := Outcome Fault

/-- The error numbers the library tells apart.  `EAGAIN` is `EWOULDBLOCK` on Linux. -/
inductive Errno
  | EWOULDBLOCK
  | EINTR
  | EPIPE
  | ECONNRESET
  /-- Any other error. -/
  | other (n : ℕ)
  deriving DecidableEq, Repr

/-- The errors after which the peer takes no more bytes. -/
def Errno.Fatal (e : Errno) : Prop :=
  e = .EPIPE ∨ e = .ECONNRESET

instance (e : Errno) : Decidable e.Fatal :=
  inferInstanceAs (Decidable (_ ∨ _))

/-- What `write()` answers. -/
inductive WriteResult
  /-- It takes up to `n` bytes, at most those offered. -/
  | wrote (n : ℕ)
  /-- It returns `-1` and sets `errno`. -/
  | failed (e : Errno)
  deriving DecidableEq, Repr

/-- What `readv()` answers: the bytes received, or `-1` with an error. -/
abbrev ReadvResult := Except Errno (List UInt8)

/-- What `realloc()` answers to a request for `n` bytes: `NULL`, or memory whose bytes past
the old content are unknown. -/
abbrev Realloc := ℕ → Option (ℕ → UInt8)

/-- The allocator never answers `NULL`. -/
def Realloc.Succeeds (r : Realloc) : Prop :=
  ∀ n, (r n).isSome = true

/-! ## Integer conversions -/

/-- To `int`. -/
def toInt (n : ℕ) : ℤ := Int.bmod n (2 ^ 32)

/-- To `size_t`. -/
def toSizeT (n : ℤ) : ℕ := (n % 2 ^ 64).toNat

lemma toInt_of_lt {n : ℕ} (h : n < 2 ^ 31) : toInt n = n := by
  unfold toInt
  rw [Int.bmod_eq_of_le] <;> omega

lemma toSizeT_of_lt {n : ℕ} (h : n < 2 ^ 64) : toSizeT n = n := by
  unfold toSizeT
  omega

/-- What does not fit in an `int` comes out smaller. -/
lemma toInt_lt (n : ℕ) : toInt n < 2 ^ 31 := by
  unfold toInt
  have := Int.bmod_lt (x := n) (m := 2 ^ 32) (by norm_num)
  omega

lemma toInt_toNat_le (n : ℕ) : (toInt n).toNat ≤ n := by
  by_cases h : n < 2 ^ 31
  · rw [toInt_of_lt h, Int.toNat_natCast]
  · have := toInt_lt n
    omega

/-- What `realloc` answers when it is asked for a sum of two `int`s.  No object is larger than
`PTRDIFF_MAX`. -/
def Realloc.ofInt (r : Realloc) : Realloc := fun sum =>
  if toSizeT (toInt sum) < 2 ^ 63 then r (toSizeT (toInt sum)) else none

lemma Realloc.ofInt_of_lt (r : Realloc) {sum : ℕ} (h : sum < 2 ^ 31) : r.ofInt sum = r sum := by
  have hsize : toSizeT (toInt sum) = sum := by
    rw [toInt_of_lt h, toSizeT_of_lt (by omega)]
  have hless : sum < 2 ^ 63 := by omega
  rw [Realloc.ofInt, hsize, if_pos hless]

/-- The sum of two `int`s that does not fit in an `int` is negative. -/
lemma Realloc.ofInt_of_le (r : Realloc) {sum : ℕ} (h : 2 ^ 31 ≤ sum) (hsum : sum < 2 ^ 32) :
    r.ofInt sum = none := by
  have hint : toInt sum = (sum : ℤ) - 2 ^ 32 := by
    unfold toInt
    rw [← Int.sub_bmod_right, Int.bmod_eq_of_le] <;> omega
  have hsize : ¬ toSizeT (toInt sum) < 2 ^ 63 := by
    rw [hint, toSizeT]
    omega
  exact if_neg hsize

end Yolanda
