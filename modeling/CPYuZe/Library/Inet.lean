import CPYuZe.Library.CString

/-!
# The text of an IPv4 address

`inetNtop4` writes four bytes as decimal numbers with points between them.  `inetPton4` reads such
a text digit by digit, as the C library does: it refuses a number above 255, one with a zero in
front, and any other character.

What it takes is only what `inetNtop4` writes (`inetPton4_eq_some`), so that a text that has been
read is written again as it was.
-/

namespace Inet

/-- A number in a base up to sixteen, with the digits in lower case. -/
def numeral (base n : ℕ) : List UInt8 := (Nat.toDigits base n).map fun c => UInt8.ofNat c.toNat

lemma decimal_eq_numeral (n : ℕ) : decimal n = numeral 10 n := rfl

/-- The byte of a digit. -/
def digit (d : ℕ) : UInt8 := UInt8.ofNat d.digitChar.toNat

lemma numeral_of_lt {base n : ℕ} (h : n < base) : numeral base n = [digit n] := by
  rw [numeral, Nat.toDigits_of_lt_base h]
  rfl

lemma numeral_of_le {base n : ℕ} (hbase : 1 < base) (h : base ≤ n) :
    numeral base n = numeral base (n / base) ++ [digit (n % base)] := by
  rw [numeral, Nat.toDigits_of_base_le hbase h, List.map_append]
  rfl

lemma numeral_ne_nil (base n : ℕ) : numeral base n ≠ [] := by
  rw [numeral, Ne, List.map_eq_nil_iff]
  exact Nat.toDigits_ne_nil

/-- The number of a decimal digit. -/
def decimalValue (ch : UInt8) : Option ℕ :=
  if 48 ≤ ch ∧ ch ≤ 57 then some (ch.toNat - 48) else none

lemma decimalValue_digit {d : ℕ} (h : d < 10) : decimalValue (digit d) = some d := by
  interval_cases d <;> rfl

lemma decimalValue_eq_some {ch : UInt8} {d : ℕ} (h : decimalValue ch = some d) :
    d < 10 ∧ ch = digit d := by
  unfold decimalValue at h
  split_ifs at h with hrange
  obtain rfl := Option.some.inj h
  obtain ⟨hlow, hhigh⟩ := hrange
  rw [UInt8.le_iff_toNat_le] at hlow hhigh
  simp only [UInt8.reduceToNat] at hlow hhigh
  refine ⟨by omega, UInt8.toNat_inj.1 ?_⟩
  generalize ch.toNat = n at hlow hhigh
  interval_cases n <;> rfl

/-- Four bytes, and more, with points between them. -/
def dotted : List UInt8 → List UInt8
  | [] => []
  | [b] => decimal b.toNat
  | b :: c :: bytes => decimal b.toNat ++ 46 :: dotted (c :: bytes)

/-- `inet_ntop` for `AF_INET`. -/
def inetNtop4 (addr : List UInt8) : List UInt8 := dotted addr

/-- Read on behind `done`, with `current` the number the digits have made so far. -/
def scan4 (done : List UInt8) (current : Option ℕ) : List UInt8 → Option (List UInt8)
  | [] =>
    match current with
    | some v => if done.length = 3 then some (done ++ [UInt8.ofNat v]) else none
    | none => none
  | ch :: src =>
    match decimalValue ch, current with
    | some d, none => scan4 done (some d) src
    | some d, some v =>
      if v = 0 ∨ 255 < v * 10 + d then none else scan4 done (some (v * 10 + d)) src
    | none, some v =>
      if ch = 46 ∧ done.length < 3 then scan4 (done ++ [UInt8.ofNat v]) none src else none
    | none, none => none

/-- `inet_pton` for `AF_INET`. -/
def inetPton4 (text : List UInt8) : Option (List UInt8) := scan4 [] none text

lemma scan4_cons (done : List UInt8) (current : Option ℕ) (ch : UInt8) (src : List UInt8) :
    scan4 done current (ch :: src) =
      match decimalValue ch, current with
      | some d, none => scan4 done (some d) src
      | some d, some v =>
        if v = 0 ∨ 255 < v * 10 + d then none else scan4 done (some (v * 10 + d)) src
      | none, some v =>
        if ch = 46 ∧ done.length < 3 then scan4 (done ++ [UInt8.ofNat v]) none src else none
      | none, none => none := rfl

/-! ## What is written is read -/

lemma scan4_digit {done src : List UInt8} {d : ℕ} (h : d < 10) :
    scan4 done none (digit d :: src) = scan4 done (some d) src := by
  rw [scan4_cons, decimalValue_digit h]

lemma scan4_digit_some {done src : List UInt8} {v d : ℕ} (hd : d < 10) (hv : v ≠ 0)
    (hle : v * 10 + d ≤ 255) :
    scan4 done (some v) (digit d :: src) = scan4 done (some (v * 10 + d)) src := by
  rw [scan4_cons, decimalValue_digit hd]
  exact if_neg (by omega)

lemma scan4_decimal {done : List UInt8} {v : ℕ} (hv : v ≤ 255) (src : List UInt8) :
    scan4 done none (decimal v ++ src) = scan4 done (some v) src := by
  rw [decimal_eq_numeral]
  induction v using Nat.strong_induction_on generalizing src with
  | _ v ih =>
    by_cases hlt : v < 10
    · rw [numeral_of_lt hlt]
      exact scan4_digit hlt
    · rw [numeral_of_le (by norm_num) (by omega), List.append_assoc,
        ih (v / 10) (by omega) (by omega)]
      have hnum : v / 10 * 10 + v % 10 = v := by omega
      have hstep : scan4 done (some (v / 10)) (digit (v % 10) :: src) =
          scan4 done (some (v / 10 * 10 + v % 10)) src :=
        scan4_digit_some (by omega) (by omega) (by omega)
      rw [hnum] at hstep
      exact hstep

lemma scan4_point {done src : List UInt8} {v : ℕ} (h : done.length < 3) :
    scan4 done (some v) (46 :: src) = scan4 (done ++ [UInt8.ofNat v]) none src := by
  rw [scan4_cons, show decimalValue 46 = none from rfl]
  exact if_pos ⟨rfl, h⟩

lemma scan4_dotted {done bytes : List UInt8} (hne : bytes ≠ [])
    (hlength : done.length + bytes.length = 4) :
    scan4 done none (dotted bytes) = some (done ++ bytes) := by
  induction bytes generalizing done with
  | nil => exact absurd rfl hne
  | cons b bytes ih =>
    have hb : b.toNat ≤ 255 := Nat.le_of_lt_succ b.toNat_lt
    cases bytes with
    | nil =>
      have h3 : done.length = 3 := Nat.succ.inj hlength
      have hscan : scan4 done none (decimal b.toNat ++ []) = scan4 done (some b.toNat) [] :=
        scan4_decimal hb []
      rw [List.append_nil] at hscan
      rw [dotted, hscan, scan4, if_pos h3, UInt8.ofNat_toNat]
    | cons c bytes =>
      rw [List.length_cons, List.length_cons] at hlength
      rw [dotted, scan4_decimal hb, scan4_point (by omega), UInt8.ofNat_toNat,
        ih (List.cons_ne_nil c bytes)
          (by rw [List.length_append, List.length_singleton, List.length_cons]; omega),
        List.append_assoc]
      rfl

/-! ## What is read is what is written -/

lemma decimal_append_digit {v d : ℕ} (hv : v ≠ 0) (hd : d < 10) :
    decimal (v * 10 + d) = decimal v ++ [digit d] := by
  rw [decimal_eq_numeral, numeral_of_le (by norm_num) (by omega)]
  rw [show (v * 10 + d) / 10 = v by omega, show (v * 10 + d) % 10 = d by omega]
  rfl

/-- The text so far of the number that is being read. -/
def digits : Option ℕ → List UInt8
  | none => []
  | some v => decimal v

lemma exists_dotted_of_scan4 {text done addr : List UInt8} {current : Option ℕ}
    (hdone : done.length ≤ 3) (hcurrent : ∀ v, current = some v → v ≤ 255)
    (h : scan4 done current text = some addr) :
    ∃ bytes, bytes ≠ [] ∧ addr = done ++ bytes ∧ done.length + bytes.length = 4 ∧
      digits current ++ text = dotted bytes := by
  induction text generalizing done current with
  | nil =>
    cases current with
    | none => cases h
    | some v =>
      rw [scan4] at h
      split_ifs at h with hlength
      obtain rfl := Option.some.inj h
      have hv : (UInt8.ofNat v).toNat = v := by
        rw [UInt8.toNat_ofNat']
        exact Nat.mod_eq_of_lt (Nat.lt_succ_of_le (hcurrent v rfl))
      refine ⟨[UInt8.ofNat v], List.cons_ne_nil _ _, rfl, by rw [hlength]; rfl, ?_⟩
      rw [List.append_nil, dotted, hv]
      rfl
  | cons ch src ih =>
    rw [scan4_cons] at h
    cases hd : decimalValue ch with
    | some d =>
      obtain ⟨hlt, rfl⟩ := decimalValue_eq_some hd
      rw [hd] at h
      cases current with
      | none =>
        obtain ⟨bytes, hne, haddr, hlen, htext⟩ := ih hdone
          (fun v hv => by obtain rfl := Option.some.inj hv; omega) h
        refine ⟨bytes, hne, haddr, hlen, ?_⟩
        rw [← htext]
        show digit d :: src = decimal d ++ src
        rw [decimal_eq_numeral, numeral_of_lt hlt]
        rfl
      | some v =>
        dsimp only at h
        split_ifs at h with hbad
        obtain ⟨hv, hle⟩ := not_or.1 hbad
        obtain ⟨bytes, hne, haddr, hlen, htext⟩ := ih hdone
          (fun u hu => by obtain rfl := Option.some.inj hu; omega) h
        refine ⟨bytes, hne, haddr, hlen, ?_⟩
        rw [← htext, digits, digits, decimal_append_digit hv hlt, List.append_assoc]
        rfl
    | none =>
      rw [hd] at h
      cases current with
      | none => cases h
      | some v =>
        dsimp only at h
        split_ifs at h with hpoint
        obtain ⟨rfl, hlength⟩ := hpoint
        have hv : (UInt8.ofNat v).toNat = v := by
          rw [UInt8.toNat_ofNat']
          exact Nat.mod_eq_of_lt (Nat.lt_succ_of_le (hcurrent v rfl))
        obtain ⟨bytes, hne, rfl, hlen, htext⟩ := ih
          (by rw [List.length_append, List.length_singleton]; omega) (by simp) h
        obtain ⟨c, rest, rfl⟩ := List.exists_cons_of_ne_nil hne
        rw [List.length_append, List.length_singleton] at hlen
        refine ⟨UInt8.ofNat v :: c :: rest, List.cons_ne_nil _ _, List.append_assoc .., ?_, ?_⟩
        · rw [List.length_cons]
          omega
        · rw [dotted, hv, ← htext]
          rfl

/-- Exactly the texts of addresses are read. -/
lemma inetPton4_eq_some {text addr : List UInt8} :
    inetPton4 text = some addr ↔ addr.length = 4 ∧ text = inetNtop4 addr := by
  constructor
  · intro h
    have hnone : ([] : List UInt8).length ≤ 3 := Nat.zero_le 3
    obtain ⟨bytes, -, rfl, hlength, htext⟩ := exists_dotted_of_scan4 hnone (by simp) h
    exact ⟨(Nat.zero_add _).symm.trans hlength, htext⟩
  · rintro ⟨hlength, rfl⟩
    have hne : addr ≠ [] := List.ne_nil_of_length_eq_add_one hlength
    exact scan4_dotted hne ((Nat.zero_add _).trans hlength)

/-! ## The letters of a text -/

lemma mem_dotted {bytes : List UInt8} {ch : UInt8} (h : ch ∈ dotted bytes) :
    (48 ≤ ch ∧ ch ≤ 57) ∨ ch = 46 := by
  induction bytes with
  | nil => cases h
  | cons b bytes ih =>
    cases bytes with
    | nil => exact .inl (decimal_digit h)
    | cons c bytes =>
      rcases List.mem_append.1 h with h | h
      · exact .inl (decimal_digit h)
      · rcases List.mem_cons.1 h with h | h
        · exact .inr h
        · exact ih h

end Inet
