import CPYuZe.Library.Inet

/-!
# Searching in C strings

`strstr` and `strchr` look through a C string, and `strtoul` reads a number at the front of one.
They stop at what they look for, or at the zero that ends the string; if there is neither in the
memory they are given, they run past its end, and there is no answer.
-/

/-- `strstr`: where the needle is found, if it is. -/
def strstr (needle bytes : List UInt8) : Option (Option ℕ) :=
  match memmem needle (cstr bytes) with
  | some i => some (some i)
  | none => if 0 ∈ bytes then some none else none

/-- `strchr`. -/
def strchr (c : UInt8) (bytes : List UInt8) : Option (Option ℕ) := strstr [c] bytes

section Search

variable {needle bytes front rest : List UInt8} {c : UInt8} {n : ℕ}

lemma strstr_eq_found :
    strstr needle bytes = some (some n) ↔ memmem needle (cstr bytes) = some n := by
  unfold strstr
  cases memmem needle (cstr bytes) with
  | some i => simp
  | none =>
    dsimp only
    split_ifs <;> simp

/-- There is an answer if the string ends in the memory. -/
lemma exists_strstr (h : 0 ∈ bytes) (needle : List UInt8) :
    ∃ found, strstr needle bytes = some found := by
  unfold strstr
  cases memmem needle (cstr bytes) with
  | some i => exact ⟨_, rfl⟩
  | none => exact ⟨none, if_pos h⟩

lemma strchr_append (hc : c ≠ 0) (hzero : 0 ∉ front) (hfront : c ∉ front) (rest : List UInt8) :
    strchr c (front ++ c :: rest) = some (some front.length) := by
  have hcstr : cstr (front ++ c :: rest) = front ++ c :: cstr rest := by
    have hnone : 0 ∉ front ++ [c] := by simpa using ⟨hzero, hc.symm⟩
    have happend := cstr_append hnone rest
    rw [List.append_assoc, List.append_assoc] at happend
    exact happend
  rw [strchr, strstr_eq_found, hcstr]
  exact memmem_singleton_append hfront _

/-- A needle of two characters is found right behind a text without the first of them. -/
lemma strstr_pair_append {d : UInt8} (hcd : c ≠ d) (hc : c ≠ 0) (hd : d ≠ 0) (hzero : 0 ∉ front)
    (hfront : c ∉ front) (rest : List UInt8) :
    strstr [c, d] (front ++ c :: d :: rest) = some (some front.length) := by
  have hcstr : cstr (front ++ c :: d :: rest) = front ++ c :: d :: cstr rest := by
    have hnone : 0 ∉ front ++ [c, d] := by simpa using ⟨hzero, hc.symm, hd.symm⟩
    have happend := cstr_append hnone rest
    rw [List.append_assoc, List.append_assoc] at happend
    exact happend
  rw [strstr_eq_found, hcstr]
  refine memmem_pair_append hcd (fun hinfix => hfront ?_) _
  exact hinfix.subset List.mem_cons_self

/-- What stands in front of the character that is found. -/
lemma exists_of_strchr (h : strchr c bytes = some (some n)) :
    ∃ rest, bytes = bytes.take n ++ c :: rest ∧ n < bytes.length ∧ c ∉ bytes.take n ∧
      0 ∉ bytes.take n := by
  have hmem := strstr_eq_found.1 h
  obtain ⟨front, rest, hsplit, hlength, hfree⟩ := exists_of_memmem (List.cons_ne_nil c []) hmem
  obtain ⟨tail, htail⟩ := cstr_prefix_self bytes
  have hbytes : bytes = front ++ c :: (rest ++ tail) := by
    rw [← htail, hsplit]
    simp
  have htake : bytes.take n = front := by rw [hbytes, List.take_left' hlength]
  refine ⟨rest ++ tail, ?_, ?_, ?_, ?_⟩
  · rw [htake]
    exact hbytes
  · rw [hbytes, List.length_append, List.length_cons]
    omega
  · rw [htake]
    intro hc
    obtain ⟨s, t, rfl, -⟩ := List.eq_append_cons_of_mem hc
    exact hfree ⟨s, t, by simp⟩
  · rw [htake]
    intro hzero
    refine zero_notMem_cstr bytes ?_
    rw [hsplit]
    exact List.mem_append_left _ (List.mem_append_left _ hzero)

end Search

/-! ## Numbers -/

/-- `isspace`. -/
def IsSpace (ch : UInt8) : Prop := ch = 32 ∨ (9 ≤ ch ∧ ch ≤ 13)

instance (ch : UInt8) : Decidable (IsSpace ch) := by
  unfold IsSpace
  infer_instance

/-- The number of these digits. -/
def digitsValue (digits : List UInt8) : ℕ := digits.foldl (fun v ch => v * 10 + (ch.toNat - 48)) 0

/-- The sign of a number, and what is behind it. -/
def takeSign : List UInt8 → Bool × List UInt8
  | 45 :: rest => (true, rest)
  | 43 :: rest => (false, rest)
  | rest => (false, rest)

/-- `strtoul` for the base ten, with an `unsigned long` of 64 bits. -/
def strtoul (bytes : List UInt8) : Option ℕ :=
  let (negative, rest) := takeSign (bytes.dropWhile fun ch => IsSpace ch)
  let digits := rest.takeWhile fun ch => 48 ≤ ch ∧ ch ≤ 57
  if rest.length = digits.length then none
  else if 2 ^ 64 ≤ digitsValue digits then some (2 ^ 64 - 1)
  else if negative then some ((2 ^ 64 - digitsValue digits) % 2 ^ 64)
  else some (digitsValue digits)

lemma mem_takeSign {bytes : List UInt8} {ch : UInt8} (h : ch ∈ bytes)
    (hsign : ch ≠ 45 ∧ ch ≠ 43) : ch ∈ (takeSign bytes).2 := by
  unfold takeSign
  split
  · exact (List.mem_cons.1 h).resolve_left hsign.1
  · exact (List.mem_cons.1 h).resolve_left hsign.2
  · exact h

/-- A number is read from a string that ends in its memory. -/
lemma strtoul_of_zero_mem {bytes : List UInt8} (h : 0 ∈ bytes) : strtoul bytes ≠ none := by
  have hdrop : 0 ∈ bytes.dropWhile fun ch => IsSpace ch := by
    have hsplit : bytes.takeWhile (fun ch => IsSpace ch) ++ bytes.dropWhile (fun ch => IsSpace ch) =
        bytes := List.takeWhile_append_dropWhile
    rw [← hsplit, List.mem_append] at h
    rcases h with h | h
    · exact absurd (List.all_eq_true.1 List.all_takeWhile 0 h) (by decide)
    · exact h
  have hrest := mem_takeSign hdrop ⟨by decide, by decide⟩
  generalize hsign : takeSign (bytes.dropWhile fun ch => IsSpace ch) = sign at hrest
  have hdigits : sign.2.length ≠ (sign.2.takeWhile fun ch => 48 ≤ ch ∧ ch ≤ 57).length := by
    intro hlength
    rw [← (List.takeWhile_prefix _).eq_of_length hlength.symm] at hrest
    exact absurd (List.all_eq_true.1 List.all_takeWhile 0 hrest) (by decide)
  unfold strtoul
  rw [hsign]
  dsimp only
  rw [if_neg hdigits]
  split_ifs <;> exact Option.some_ne_none _

lemma digitsValue_append (digits : List UInt8) (ch : UInt8) :
    digitsValue (digits ++ [ch]) = digitsValue digits * 10 + (ch.toNat - 48) := by
  rw [digitsValue, List.foldl_append]
  rfl

lemma digitsValue_decimal (n : ℕ) : digitsValue (decimal n) = n := by
  have hdigit (d : ℕ) (hd : d < 10) : (Inet.digit d).toNat - 48 = d := by
    interval_cases d <;> rfl
  induction n using Nat.strong_induction_on with
  | _ n ih =>
    rw [Inet.decimal_eq_numeral]
    by_cases hlt : n < 10
    · rw [Inet.numeral_of_lt hlt]
      show 0 * 10 + ((Inet.digit n).toNat - 48) = n
      rw [hdigit n hlt]
      omega
    · rw [Inet.numeral_of_le (by norm_num) (by omega), digitsValue_append,
        ← Inet.decimal_eq_numeral, ih (n / 10) (by omega), hdigit _ (Nat.mod_lt n (by norm_num))]
      omega

/-- The number of these digits, with a sign in front of them or without. -/
def signedValue (bytes : List UInt8) : ℤ :=
  let (negative, digits) := takeSign bytes
  if negative then -digitsValue digits else digitsValue digits

lemma takeSign_of_digit {ch : UInt8} (h : 48 ≤ ch ∧ ch ≤ 57) (rest : List UInt8) :
    takeSign (ch :: rest) = (false, ch :: rest) := by
  unfold takeSign
  split
  · next heq =>
    obtain ⟨rfl, -⟩ := List.cons.inj heq
    exact absurd h (by decide)
  · next heq =>
    obtain ⟨rfl, -⟩ := List.cons.inj heq
    exact absurd h (by decide)
  · rfl

/-- A number as `printf` writes it is read as it is. -/
lemma strtoul_decimal {n : ℕ} (hn : n < 2 ^ 64) {ch : UInt8} (hch : ¬ (48 ≤ ch ∧ ch ≤ 57))
    (rest : List UInt8) : strtoul (decimal n ++ ch :: rest) = some n := by
  obtain ⟨d, digits, hdecimal⟩ : ∃ d digits, decimal n = d :: digits :=
    List.exists_cons_of_ne_nil (Inet.numeral_ne_nil 10 n)
  have hd : 48 ≤ d ∧ d ≤ 57 := decimal_digit (hdecimal ▸ List.mem_cons_self)
  have hspace : ¬ IsSpace d := by
    rintro (rfl | ⟨-, hle⟩)
    · exact absurd hd (by decide)
    · exact absurd (UInt8.le_trans hd.1 hle) (by decide)
  have hdrop : (decimal n ++ ch :: rest).dropWhile (fun ch => IsSpace ch) =
      decimal n ++ ch :: rest := by
    rw [hdecimal, List.cons_append, List.dropWhile_cons_of_neg (by simpa using hspace)]
  have hsign : takeSign (decimal n ++ ch :: rest) = (false, decimal n ++ ch :: rest) := by
    rw [hdecimal, List.cons_append]
    exact takeSign_of_digit hd _
  have htake : (decimal n ++ ch :: rest).takeWhile (fun ch => 48 ≤ ch ∧ ch ≤ 57) = decimal n := by
    rw [List.takeWhile_append_of_pos (fun b hb => by simpa using decimal_digit hb),
      List.takeWhile_cons_of_neg (by simpa using hch), List.append_nil]
  unfold strtoul
  rw [hdrop, hsign]
  dsimp only
  rw [htake, digitsValue_decimal, if_neg (by rw [List.length_append, List.length_cons]; omega),
    if_neg (not_le.2 hn)]
  rfl

/-- A number that `printf` writes with its sign is read back. -/
lemma signedValue_decimalInt (n : ℤ) : signedValue (decimalInt n) = n := by
  unfold decimalInt
  split_ifs with hneg
  · show -(digitsValue (decimal n.natAbs) : ℤ) = n
    rw [digitsValue_decimal]
    omega
  · obtain ⟨d, digits, hdecimal⟩ : ∃ d digits, decimal n.natAbs = d :: digits :=
      List.exists_cons_of_ne_nil (Inet.numeral_ne_nil 10 n.natAbs)
    have hd : 48 ≤ d ∧ d ≤ 57 := decimal_digit (hdecimal ▸ List.mem_cons_self)
    have hsign : takeSign (decimal n.natAbs) = (false, decimal n.natAbs) := by
      rw [hdecimal]
      exact takeSign_of_digit hd digits
    rw [signedValue, hsign]
    show (digitsValue (decimal n.natAbs) : ℤ) = n
    rw [digitsValue_decimal]
    omega
