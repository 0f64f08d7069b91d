import Mathlib.Tactic
import Mathlib.Data.List.Infix

/-!
# Byte strings as the C library sees them

`memmem` is the search for the first occurrence of one byte string in another; what it
answers is pinned down by `memmem_eq_some` and `memmem_eq_none`.  The two lemmas the line
parsers rest on are about a two-letter needle: it is found right behind a text that does not
contain it (`memmem_pair_append`), and a text with only the first letter behind it does not
contain it yet (`memmem_pair_append_singleton`).

A C string is what stands in memory up to the first zero byte (`cstr`).  `strncpy` copies at
most a given number of bytes of one and fills up with zeros; `strncmp` compares at most a
given number of them.  The standard fixes only the sign of what `strncmp` returns, so the
value it returns for the first pair of different bytes is a parameter (`ByteDiff`) with the
sign as its one law.
-/

section Memmem

variable {α : Type*} [DecidableEq α] {needle hay : List α}

/-- `memmem`: the offset of the first occurrence of `needle` in the text, if there is one. -/
def memmem (needle : List α) : List α → Option ℕ
  | [] => if needle = [] then some 0 else none
  | a :: hay => if needle <+: a :: hay then some 0 else (memmem needle hay).map (· + 1)

lemma memmem_eq_none : memmem needle hay = none ↔ ∀ j, ¬ needle <+: hay.drop j := by
  induction hay with
  | nil => simp [memmem]
  | cons a hay ih =>
    by_cases h : needle <+: a :: hay
    · simp only [memmem, if_pos h, reduceCtorEq, false_iff, not_forall, not_not]
      exact ⟨0, h⟩
    · simp only [memmem, if_neg h, Option.map_eq_none_iff, ih]
      constructor
      · rintro h' (_ | j)
        · exact h
        · exact h' j
      · exact fun h' j => h' (j + 1)

/-- The offset found is that of an occurrence, and none stands further to the front. -/
lemma memmem_eq_some {i : ℕ} :
    memmem needle hay = some i ↔
      needle <+: hay.drop i ∧ ∀ j < i, ¬ needle <+: hay.drop j := by
  induction hay generalizing i with
  | nil =>
    by_cases h : needle = []
    · subst h
      simp only [memmem, if_true, Option.some.injEq, List.drop_nil, List.prefix_rfl,
        not_true_eq_false, imp_false, not_lt, true_and]
      exact ⟨fun h j => by omega, fun h => (Nat.le_zero.1 (h 0)).symm⟩
    · simp [memmem, h]
  | cons a hay ih =>
    by_cases h : needle <+: a :: hay
    · simp only [memmem, if_pos h, Option.some.injEq]
      constructor
      · rintro rfl
        exact ⟨h, by simp⟩
      · rintro ⟨-, hi⟩
        by_contra hne
        exact hi 0 (by omega) h
    · simp only [memmem, if_neg h, Option.map_eq_some_iff, ih]
      constructor
      · rintro ⟨i, ⟨hi, hlt⟩, rfl⟩
        refine ⟨hi, ?_⟩
        rintro (_ | j) hj
        · exact h
        · exact hlt j (by omega)
      · rintro ⟨hi, hlt⟩
        cases i with
        | zero => exact absurd hi h
        | succ i => exact ⟨i, ⟨hi, fun j hj => hlt (j + 1) (by omega)⟩, rfl⟩

/-- `i` is the offset of the first occurrence of `needle` in `hay`, or `none` if there is no
occurrence. -/
def FirstOccurrence (needle hay : List α) : Option ℕ → Prop
  | some i => needle <+: hay.drop i ∧ ∀ j < i, ¬ needle <+: hay.drop j
  | none => ∀ j, ¬ needle <+: hay.drop j

lemma memmem_firstOccurrence (needle hay : List α) :
    FirstOccurrence needle hay (memmem needle hay) := by
  cases h : memmem needle hay with
  | none => exact memmem_eq_none.1 h
  | some i => exact memmem_eq_some.1 h

lemma memmem_eq_none_iff : memmem needle hay = none ↔ ¬ needle <:+: hay := by
  rw [memmem_eq_none]
  constructor
  · rintro h ⟨front, rest, rfl⟩
    apply h front.length
    rw [List.append_assoc, List.drop_left]
    exact List.prefix_append needle rest
  · exact fun h j hj => h (hj.isInfix.trans (List.drop_suffix j hay).isInfix)

/-- In front of what is found the needle does not occur. -/
lemma exists_of_memmem (hne : needle ≠ []) {i : ℕ} (h : memmem needle hay = some i) :
    ∃ front rest, hay = front ++ needle ++ rest ∧ front.length = i ∧ ¬ needle <:+: front := by
  obtain ⟨⟨rest, hrest⟩, hfirst⟩ := memmem_eq_some.1 h
  have hle : i ≤ hay.length := by
    by_contra hlt
    rw [List.drop_eq_nil_of_le (by omega)] at hrest
    exact hne (List.append_eq_nil_iff.1 hrest).1
  refine ⟨hay.take i, rest, ?_, by simp [hle], ?_⟩
  · rw [List.append_assoc, hrest, List.take_append_drop]
  · rintro ⟨front, later, hfront⟩
    have hlen := congrArg List.length hfront
    have hpos := List.length_pos_of_ne_nil hne
    simp only [List.length_append, List.length_take] at hlen
    apply hfirst front.length (by omega)
    refine ⟨later ++ hay.drop i, ?_⟩
    have hhay : hay = front ++ (needle ++ (later ++ hay.drop i)) := by
      conv_lhs => rw [← List.take_append_drop i hay, ← hfront]
      simp only [List.append_assoc]
    conv_rhs => rw [hhay, List.drop_left]

lemma memmem_singleton_append {a : α} {xs : List α} (h : a ∉ xs) (ys : List α) :
    memmem [a] (xs ++ a :: ys) = some xs.length := by
  induction xs with
  | nil => simp [memmem]
  | cons x xs ih =>
    obtain ⟨hx, hxs⟩ := not_or.1 (List.mem_cons.not.1 h)
    simp [memmem, hx, ih hxs]

section Pair

variable {a b : α} {xs : List α}

omit [DecidableEq α] in
/-- A two-letter needle that a text does not contain does not stand at its front, whatever follows
with the first letter. -/
lemma not_pair_prefix_cons (hab : a ≠ b) {x : α} (h : ¬ [a, b] <:+: x :: xs) (ys : List α) :
    ¬ [a, b] <+: x :: (xs ++ a :: ys) := by
  rintro ⟨zs, hzs⟩
  cases xs with
  | nil =>
    simp only [List.nil_append, List.cons_append, List.cons.injEq] at hzs
    exact hab hzs.2.1.symm
  | cons y xs =>
    simp only [List.nil_append, List.cons_append, List.cons.injEq] at hzs
    exact h ⟨[], xs, by simp [hzs.1, hzs.2.1]⟩

omit [DecidableEq α] in
lemma not_pair_infix_tail {x : α} (h : ¬ [a, b] <:+: x :: xs) : ¬ [a, b] <:+: xs :=
  fun hin => h (hin.trans (List.suffix_cons x xs).isInfix)

/-- A two-letter needle is found right behind a text without it. -/
lemma memmem_pair_append (hab : a ≠ b) (h : ¬ [a, b] <:+: xs) (ys : List α) :
    memmem [a, b] (xs ++ a :: b :: ys) = some xs.length := by
  induction xs with
  | nil => simp [memmem]
  | cons x xs ih =>
    have hpre := not_pair_prefix_cons hab h (b :: ys)
    simp [memmem, hpre, ih (not_pair_infix_tail h)]

/-- The first letter alone behind a text without the needle does not complete one. -/
lemma memmem_pair_append_singleton (hab : a ≠ b) (h : ¬ [a, b] <:+: xs) :
    memmem [a, b] (xs ++ [a]) = none := by
  induction xs with
  | nil => simp [memmem]
  | cons x xs ih =>
    have hpre := not_pair_prefix_cons hab h []
    simp [memmem, hpre, ih (not_pair_infix_tail h)]

end Pair

end Memmem

/-! ## C strings -/

/-- The bytes of a literal. -/
def ascii (s : String) : List UInt8 := s.toList.map fun c => UInt8.ofNat c.toNat

/-- The decimal rendering of a number, as `printf` writes it. -/
def decimal (n : ℕ) : List UInt8 := (Nat.toDigits 10 n).map fun c => UInt8.ofNat c.toNat

lemma decimal_digit {n : ℕ} {b : UInt8} (h : b ∈ decimal n) : 48 ≤ b ∧ b ≤ 57 := by
  obtain ⟨c, hc, rfl⟩ := List.mem_map.1 h
  have hdigit := Nat.isDigit_of_mem_toDigits (by norm_num) le_rfl hc
  simp only [Char.isDigit, Bool.and_eq_true, decide_eq_true_eq] at hdigit
  have hlow : 48 ≤ c.toNat := hdigit.1
  have hhigh : c.toNat ≤ 57 := hdigit.2
  rw [UInt8.le_iff_toNat_le, UInt8.le_iff_toNat_le, UInt8.toNat_ofNat']
  exact ⟨by simp; omega, by simp; omega⟩

lemma length_decimal_le_iff {n k : ℕ} (hk : 0 < k) : (decimal n).length ≤ k ↔ n < 10 ^ k := by
  rw [decimal, List.length_map]
  exact Nat.length_toDigits_le_iff (by norm_num) hk

lemma zero_notMem_decimal (n : ℕ) : 0 ∉ decimal n := by
  intro h
  have hdigit := (decimal_digit h).1
  simp at hdigit

/-- The decimal rendering of a number with its sign. -/
def decimalInt (n : ℤ) : List UInt8 :=
  if n < 0 then 45 :: decimal n.natAbs else decimal n.natAbs

lemma zero_notMem_decimalInt (n : ℤ) : 0 ∉ decimalInt n := by
  unfold decimalInt
  split_ifs
  · simp [zero_notMem_decimal]
  · exact zero_notMem_decimal _

/-- The sign takes the place of one digit. -/
lemma length_decimalInt_le_iff {n : ℤ} {k : ℕ} (hk : 0 < k) :
    (decimalInt n).length ≤ k + 1 ↔ -10 ^ k < n ∧ n < 10 ^ (k + 1) := by
  have hcast : ∀ j : ℕ, n.natAbs < 10 ^ j ↔ (n.natAbs : ℤ) < 10 ^ j := fun j => by
    exact_mod_cast Iff.rfl
  have hpos : ∀ j : ℕ, (0 : ℤ) < 10 ^ j := fun j => by positivity
  unfold decimalInt
  split_ifs with hneg
  · rw [List.length_cons, Nat.add_le_add_iff_right, length_decimal_le_iff hk, hcast]
    have h₁ := hpos (k + 1)
    omega
  · rw [length_decimal_le_iff k.succ_pos, hcast]
    have h₀ := hpos k
    omega

/-- The C string that starts at the front of `bytes`: what stands before the first zero. -/
def cstr (bytes : List UInt8) : List UInt8 :=
  bytes.takeWhile (· != 0)

lemma cstr_append {bytes : List UInt8} (h : 0 ∉ bytes) (rest : List UInt8) :
    cstr (bytes ++ rest) = bytes ++ cstr rest := by
  apply List.takeWhile_append_of_pos
  intro b hb
  have hne : b ≠ 0 := ne_of_mem_of_not_mem hb h
  simpa using hne

lemma cstr_append_zero {bytes : List UInt8} (h : 0 ∉ bytes) (rest : List UInt8) :
    cstr (bytes ++ 0 :: rest) = bytes := by
  rw [cstr_append h]
  exact List.append_nil bytes

lemma cstr_eq_self {bytes : List UInt8} (h : 0 ∉ bytes) : cstr bytes = bytes := by
  have hnil := cstr_append h []
  rw [List.append_nil] at hnil
  exact hnil.trans (List.append_nil bytes)

lemma cstr_prefix_self (bytes : List UInt8) : cstr bytes <+: bytes := List.takeWhile_prefix _

lemma zero_notMem_cstr (bytes : List UInt8) : 0 ∉ cstr bytes := by
  intro h
  simpa using List.all_eq_true.1 List.all_takeWhile 0 h

lemma take_length_cstr (bytes : List UInt8) : bytes.take (cstr bytes).length = cstr bytes :=
  (List.prefix_iff_eq_take.1 (cstr_prefix_self bytes)).symm

/-- What stands at the front of a C string has no zero and stands at the front of the bytes. -/
lemma prefix_cstr_iff {s bytes : List UInt8} : s <+: cstr bytes ↔ s <+: bytes ∧ 0 ∉ s := by
  constructor
  · intro h
    exact ⟨h.trans (cstr_prefix_self bytes), fun hzero => zero_notMem_cstr bytes (h.subset hzero)⟩
  · rintro ⟨⟨rest, rfl⟩, hzero⟩
    rw [cstr_append hzero]
    exact List.prefix_append s _

/-- What has no zero in it does not reach past one. -/
lemma prefix_append_zero_iff {s xs : List UInt8} (hs : 0 ∉ s) (rest : List UInt8) :
    s <+: xs ++ 0 :: rest ↔ s <+: xs := by
  refine ⟨fun h => ?_, fun h => h.trans (List.prefix_append xs _)⟩
  by_cases hlen : s.length ≤ xs.length
  · exact List.prefix_of_prefix_length_le h (List.prefix_append xs _) hlen
  · have hpast : xs ++ [0] <+: s := by
      apply List.prefix_of_prefix_length_le ⟨rest, by simp⟩ h
      simp only [List.length_append, List.length_singleton]
      omega
    exact absurd (hpast.subset (by simp)) hs

lemma cstr_append_replicate (bytes : List UInt8) (n : ℕ) :
    cstr (bytes ++ List.replicate n 0) = cstr bytes := by
  by_cases h : 0 ∈ bytes
  · obtain ⟨front, rest, rfl, hfront⟩ := List.eq_append_cons_of_mem h
    rw [List.append_assoc, List.cons_append, cstr_append_zero hfront, cstr_append_zero hfront]
  · rw [cstr_append h, cstr_eq_self h]
    cases n with
    | zero => exact List.append_nil bytes
    | succ n => exact List.append_nil bytes

/-- `data` is the whole C string if it has no zero and one stands right behind it. -/
lemma cstr_append_eq_iff {data rest : List UInt8} :
    0 ∈ data ++ rest ∧ cstr (data ++ rest) = data ↔ 0 ∉ data ∧ rest.head? = some 0 := by
  constructor
  · rintro ⟨hmem, hcstr⟩
    have hzero : 0 ∉ data := by
      rw [← hcstr]
      exact zero_notMem_cstr _
    have hrest : cstr rest = [] := by
      rw [cstr_append hzero] at hcstr
      exact List.append_right_eq_self.1 hcstr
    refine ⟨hzero, ?_⟩
    cases rest with
    | nil => exact absurd (by simpa using hmem) hzero
    | cons b rest =>
      by_contra hb
      have hne : b ≠ 0 := fun heq => hb (congrArg some heq)
      have hcons : cstr (b :: rest) = b :: cstr rest :=
        List.takeWhile_cons_of_pos (by simpa using hne)
      rw [hcons] at hrest
      exact List.cons_ne_nil _ _ hrest
  · rintro ⟨hzero, hhead⟩
    obtain ⟨rest, rfl⟩ : ∃ tail, rest = 0 :: tail := List.head?_eq_some_iff.1 hhead
    exact ⟨by simp, cstr_append_zero hzero rest⟩

/-- `strncpy`: the `n` bytes it stores, the C string at the front of `src` cut to `n` bytes
and filled up with zeros. -/
def strncpy (src : List UInt8) (n : ℕ) : List UInt8 :=
  (cstr (src.take n)) ++ List.replicate (n - (cstr (src.take n)).length) 0

lemma length_strncpy (src : List UInt8) (n : ℕ) : (strncpy src n).length = n := by
  have hle : (cstr (src.take n)).length ≤ n :=
    (cstr_prefix_self _).length_le.trans (List.length_take_le n src)
  rw [strncpy, List.length_append, List.length_replicate]
  omega

lemma strncpy_eq_take {src : List UInt8} {n : ℕ} (hn : n ≤ src.length) (h : 0 ∉ src.take n) :
    strncpy src n = src.take n := by
  simp [strncpy, cstr_eq_self h, hn]

/-- What `strncmp` returns for the first pair of different bytes: any number of the right
sign. -/
structure ByteDiff where
  /-- The number returned. -/
  diff : UInt8 → UInt8 → ℤ
  /-- Bytes compare as unsigned numbers. -/
  pos_iff : ∀ x y, 0 < diff x y ↔ y < x
  /-- Bytes compare as unsigned numbers. -/
  neg_iff : ∀ x y, diff x y < 0 ↔ x < y

/-- `strncmp`: at most `n` bytes of the memory `mem` against the C string `t`.  There is no
answer when the comparison runs past the end of `mem`. -/
def strncmp (d : ByteDiff) : ℕ → List UInt8 → List UInt8 → Option ℤ
  | 0, _, _ => some 0
  | _ + 1, [], _ => none
  | n + 1, x :: mem, t =>
    if x = t.headD 0 then
      if x = 0 then some 0 else strncmp d n mem t.tail
    else some (d.diff x (t.headD 0))

lemma ByteDiff.diff_ne_zero (d : ByteDiff) {x y : UInt8} (hne : x ≠ y) : d.diff x y ≠ 0 := by
  intro hzero
  rcases UInt8.lt_or_lt_of_ne hne with hlt | hlt
  · have := (d.neg_iff x y).2 hlt
    omega
  · have := (d.pos_iff x y).2 hlt
    omega

section Strncmp

variable (d : ByteDiff) {mem t : List UInt8}

/-- Compared with a literal over the length of the literal, memory is equal to it exactly when the
literal stands at its front. -/
lemma strncmp_eq_zero_iff (ht : 0 ∉ t) : strncmp d t.length mem t = some 0 ↔ t <+: mem := by
  induction t generalizing mem with
  | nil => simp [strncmp]
  | cons y t ih =>
    obtain ⟨hy, ht'⟩ := not_or.1 (List.mem_cons.not.1 ht)
    cases mem with
    | nil => simp [strncmp]
    | cons x mem =>
      by_cases hxy : x = y
      · subst hxy
        simp [strncmp, Ne.symm hy, ih ht']
      · have hne : ¬ y = x := fun h => hxy h.symm
        simp [strncmp, hxy, hne, d.diff_ne_zero hxy]

/-- The comparison runs past the end of the memory exactly when all of it is the front of a longer
literal. -/
lemma strncmp_eq_none_iff (ht : 0 ∉ t) :
    strncmp d t.length mem t = none ↔ mem <+: t ∧ mem ≠ t := by
  induction t generalizing mem with
  | nil => simp [strncmp]
  | cons y t ih =>
    obtain ⟨hy, ht'⟩ := not_or.1 (List.mem_cons.not.1 ht)
    cases mem with
    | nil => simp [strncmp]
    | cons x mem =>
      by_cases hxy : x = y
      · subst hxy
        simp [strncmp, Ne.symm hy, ih ht']
      · simp [strncmp, hxy]

/-- The memory and the literal go on with different bytes behind the same front, and the two bytes
compare to `c`. -/
def DiffersBy (c : ℤ) (mem t : List UInt8) : Prop :=
  ∃ front x y memRest tRest, mem = front ++ x :: memRest ∧ t = front ++ y :: tRest ∧ x ≠ y ∧
    d.diff x y = c

/-- Any other answer is that for the first pair of different bytes. -/
lemma strncmp_eq_some_iff (ht : 0 ∉ t) {c : ℤ} (hc : c ≠ 0) :
    strncmp d t.length mem t = some c ↔ DiffersBy d c mem t := by
  induction t generalizing mem with
  | nil => simp [strncmp, DiffersBy, Ne.symm hc]
  | cons y t ih =>
    obtain ⟨hy, ht'⟩ := not_or.1 (List.mem_cons.not.1 ht)
    cases mem with
    | nil => simp [strncmp, DiffersBy]
    | cons x mem =>
      by_cases hxy : x = y
      · subst hxy
        simp only [List.length_cons, strncmp, List.headD_cons, if_true, Ne.symm hy, if_false,
          List.tail_cons, ih ht']
        constructor
        · rintro ⟨front, a, b, as, bs, rfl, rfl, hne, hdiff⟩
          exact ⟨x :: front, a, b, as, bs, rfl, rfl, hne, hdiff⟩
        · rintro ⟨front, a, b, as, bs, hmem, hlit, hne, hdiff⟩
          cases front with
          | nil =>
            rw [List.nil_append, List.cons.injEq] at hmem hlit
            exact absurd (hmem.1.symm.trans hlit.1) hne
          | cons z front =>
            rw [List.cons_append, List.cons.injEq] at hmem hlit
            exact ⟨front, a, b, as, bs, hmem.2, hlit.2, hne, hdiff⟩
      · have hdiffers : strncmp d (y :: t).length (x :: mem) (y :: t) = some (d.diff x y) := by
          simp [strncmp, hxy]
        rw [hdiffers, Option.some.injEq]
        constructor
        · exact fun hdiff => ⟨[], x, y, mem, t, rfl, rfl, hxy, hdiff⟩
        · rintro ⟨front, a, b, as, bs, hmem, hlit, hne, hdiff⟩
          cases front with
          | nil =>
            rw [List.nil_append, List.cons.injEq] at hmem hlit
            rw [hmem.1, hlit.1]
            exact hdiff
          | cons z front =>
            rw [List.cons_append, List.cons.injEq] at hmem hlit
            exact absurd (hmem.1.trans hlit.1.symm) hxy

/-- A string that is terminated can be compared with any literal. -/
lemma strncmp_of_zero_mem (hmem : 0 ∈ mem) (ht : 0 ∉ t) :
    ∃ c, strncmp d t.length mem t = some c ∧ (c = 0 ↔ t <+: cstr mem) := by
  cases hcmp : strncmp d t.length mem t with
  | none => exact absurd (((strncmp_eq_none_iff d ht).1 hcmp).1.subset hmem) ht
  | some c =>
    refine ⟨c, rfl, ?_⟩
    rw [prefix_cstr_iff, ← strncmp_eq_zero_iff d ht, hcmp, Option.some.injEq]
    exact (and_iff_left ht).symm

end Strncmp
