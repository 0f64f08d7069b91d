import CPYuZe.Library.Inet

/-!
# The text of an IPv6 address

`inetNtop6` writes sixteen bytes as eight hexadecimal numbers with colons between them.  The
longest run of zeros, the first of several, shrinks to nothing between two colons, and the last
four bytes of an address that holds an IPv4 address are written as such.  `inetPton6` reads such a
text letter by letter, as the C library does.

An address that is written is read again (`inetPton6_inetNtop6`).  The other way a text need not
come back as it was, since there are several texts for an address.
-/

namespace Inet

/-! ## Numbers of two bytes -/

def words : List UInt8 → List ℕ
  | hi :: lo :: rest => (hi.toNat * 256 + lo.toNat) :: words rest
  | _ => []

def wordBytes (w : ℕ) : List UInt8 := [UInt8.ofNat (w / 256), UInt8.ofNat w]

lemma word_lt {addr : List UInt8} {w : ℕ} (h : w ∈ words addr) : w < 65536 := by
  induction addr using words.induct with
  | case1 hi lo rest ih =>
    rcases List.mem_cons.1 h with rfl | h
    · have hhi := hi.toNat_lt
      have hlo := lo.toNat_lt
      omega
    · exact ih h
  | case2 addr hne =>
    rw [words] at h
    · cases h
    · exact hne

lemma length_words (addr : List UInt8) : (words addr).length = addr.length / 2 := by
  induction addr using words.induct with
  | case1 hi lo rest ih =>
    rw [words, List.length_cons, ih, List.length_cons, List.length_cons]
    omega
  | case2 addr hne =>
    rw [words]
    · cases addr with
      | nil => rfl
      | cons hi addr =>
        cases addr with
        | nil => simp
        | cons lo rest => exact absurd rfl (hne hi lo rest)
    · exact hne

lemma flatMap_wordBytes {addr : List UInt8} (h : addr.length % 2 = 0) :
    (words addr).flatMap wordBytes = addr := by
  induction addr using words.induct with
  | case1 hi lo rest ih =>
    rw [List.length_cons, List.length_cons] at h
    have hhi : UInt8.ofNat ((hi.toNat * 256 + lo.toNat) / 256) = hi := by
      rw [show (hi.toNat * 256 + lo.toNat) / 256 = hi.toNat by have := lo.toNat_lt; omega]
      exact UInt8.ofNat_toNat
    have hlo : UInt8.ofNat (hi.toNat * 256 + lo.toNat) = lo := by
      apply UInt8.toNat_inj.1
      rw [UInt8.toNat_ofNat']
      have := lo.toNat_lt
      omega
    rw [words, List.flatMap_cons, wordBytes, hhi, hlo, ih (by omega)]
    rfl
  | case2 addr hne =>
    cases addr with
    | nil => rfl
    | cons hi addr =>
      cases addr with
      | nil => cases h
      | cons lo rest => exact absurd rfl (hne hi lo rest)

/-! ## The longest run of zeros -/

structure Run where
  base : ℕ
  len : ℕ

/-- The longer of two, and the first of them if there is none. -/
def longer : Option Run → Option Run → Option Run
  | best, none => best
  | none, some current => some current
  | some best, some current => if best.len < current.len then some current else some best

def scanRuns : List ℕ → ℕ → Option Run → Option Run → Option Run
  | [], _, current, best => longer best current
  | w :: ws, i, current, best =>
    if w = 0 then
      match current with
      | none => scanRuns ws (i + 1) (some ⟨i, 1⟩) best
      | some run => scanRuns ws (i + 1) (some ⟨run.base, run.len + 1⟩) best
    else scanRuns ws (i + 1) none (longer best current)

section ScanRuns

variable {ws : List ℕ} {i : ℕ} {best : Option Run}

lemma scanRuns_zero_none :
    scanRuns (0 :: ws) i none best = scanRuns ws (i + 1) (some ⟨i, 1⟩) best := rfl

lemma scanRuns_zero_some {run : Run} :
    scanRuns (0 :: ws) i (some run) best =
      scanRuns ws (i + 1) (some ⟨run.base, run.len + 1⟩) best := rfl

lemma scanRuns_cons_of_ne {w : ℕ} (hw : w ≠ 0) {current : Option Run} :
    scanRuns (w :: ws) i current best = scanRuns ws (i + 1) none (longer best current) := by
  cases current with
  | none => exact if_neg hw
  | some run => exact if_neg hw

end ScanRuns

/-- The run that is left out in the text. -/
def bestRun (ws : List ℕ) : Option Run :=
  match scanRuns ws 0 none none with
  | some run => if run.len < 2 then none else some run
  | none => none

/-- There is a run of zeros here. -/
def IsRun (ws : List ℕ) (run : Run) : Prop :=
  ∃ left right, ws = left ++ List.replicate run.len 0 ++ right ∧ left.length = run.base

lemma IsRun.append {ws : List ℕ} {run : Run} (h : IsRun ws run) (more : List ℕ) :
    IsRun (ws ++ more) run := by
  obtain ⟨left, right, rfl, hbase⟩ := h
  exact ⟨left, right ++ more, List.append_assoc .., hbase⟩

lemma isRun_longer {ws : List ℕ} {best current : Option Run} (hbest : ∀ run ∈ best, IsRun ws run)
    (hcurrent : ∀ run ∈ current, IsRun ws run) : ∀ run ∈ longer best current, IsRun ws run := by
  intro run hrun
  cases best with
  | none =>
    cases current with
    | none => exact hbest run hrun
    | some current => exact hcurrent run hrun
  | some best =>
    cases current with
    | none => exact hbest run hrun
    | some current =>
      rw [longer] at hrun
      split_ifs at hrun
      · exact hcurrent run hrun
      · exact hbest run hrun

/-- The words seen so far end in the current run. -/
def EndsInRun (front : List ℕ) (run : Run) : Prop :=
  ∃ left, front = left ++ List.replicate run.len 0 ∧ left.length = run.base

lemma EndsInRun.isRun {front : List ℕ} {run : Run} (h : EndsInRun front run) :
    IsRun front run := by
  obtain ⟨left, rfl, hbase⟩ := h
  exact ⟨left, [], (List.append_nil _).symm, hbase⟩

lemma isRun_scanRuns {ws front : List ℕ} {current best : Option Run}
    (hcurrent : ∀ run ∈ current, EndsInRun front run) (hbest : ∀ run ∈ best, IsRun front run) :
    ∀ run ∈ scanRuns ws front.length current best, IsRun (front ++ ws) run := by
  induction ws generalizing front current best with
  | nil =>
    rw [List.append_nil]
    exact isRun_longer hbest fun run hrun => (hcurrent run hrun).isRun
  | cons w ws ih =>
    have hfront : front ++ w :: ws = (front ++ [w]) ++ ws := (List.append_assoc front [w] ws).symm
    have hlength : front.length + 1 = (front ++ [w]).length := by
      rw [List.length_append, List.length_singleton]
    have hbest' (run : Run) (hrun : run ∈ best) : IsRun (front ++ [w]) run :=
      (hbest run hrun).append [w]
    rw [hfront]
    by_cases hw : w = 0
    · subst hw
      cases current with
      | none =>
        rw [scanRuns_zero_none, hlength]
        refine ih (fun run hrun => ?_) hbest'
        obtain rfl := Option.some.inj hrun
        exact ⟨front, rfl, rfl⟩
      | some current =>
        obtain ⟨left, rfl, hbase⟩ := hcurrent current rfl
        rw [scanRuns_zero_some, hlength]
        refine ih (fun run hrun => ?_) hbest'
        obtain rfl := Option.some.inj hrun
        refine ⟨left, ?_, hbase⟩
        rw [List.append_assoc, ← List.replicate_succ']
    · rw [scanRuns_cons_of_ne hw, hlength]
      refine ih (fun run hrun => nomatch hrun) fun run hrun => ?_
      refine IsRun.append (isRun_longer hbest (fun run hrun => ?_) run hrun) [w]
      exact (hcurrent run hrun).isRun

lemma isRun_bestRun {ws : List ℕ} {run : Run} (h : bestRun ws = some run) : IsRun ws run := by
  have hscan : ∀ run ∈ scanRuns ws ([] : List ℕ).length none none, IsRun ([] ++ ws) run :=
    isRun_scanRuns (fun run hrun => nomatch hrun) (fun run hrun => nomatch hrun)
  unfold bestRun at h
  split at h
  · next found hfound =>
    split_ifs at h
    obtain rfl := Option.some.inj h
    exact hscan found hfound
  · cases h

lemma two_le_bestRun {ws : List ℕ} {run : Run} (h : bestRun ws = some run) : 2 ≤ run.len := by
  unfold bestRun at h
  split at h
  · next found _ =>
    split_ifs at h with hlen
    obtain rfl := Option.some.inj h
    exact not_lt.1 hlen
  · cases h

/-! ## Writing -/

/-- Words with colons between them. -/
def joined : List ℕ → List UInt8
  | [] => []
  | [w] => numeral 16 w
  | w :: v :: ws => numeral 16 w ++ 58 :: joined (v :: ws)

/-- An address with an IPv4 address in it: one that begins with this run. -/
def HoldsInet4 (ws : List ℕ) (run : Run) : Prop :=
  run.base = 0 ∧ (run.len = 6 ∨ (run.len = 5 ∧ ws[5]? = some 0xffff))

instance (ws : List ℕ) (run : Run) : Decidable (HoldsInet4 ws run) := by
  unfold HoldsInet4
  infer_instance

/-- `inet_ntop` for `AF_INET6`. -/
def inetNtop6 (addr : List UInt8) : List UInt8 :=
  match bestRun (words addr) with
  | none => joined (words addr)
  | some run =>
    if HoldsInet4 (words addr) run then
      58 :: 58 :: (if run.len = 6 then [] else numeral 16 0xffff ++ [58]) ++
        inetNtop4 (addr.drop 12)
    else
      joined ((words addr).take run.base) ++
        58 :: 58 :: joined ((words addr).drop (run.base + run.len))

/-! ## Reading -/

/-- The number of a hexadecimal digit. -/
def hexValue (ch : UInt8) : Option ℕ :=
  if 48 ≤ ch ∧ ch ≤ 57 then some (ch.toNat - 48)
  else if 97 ≤ ch ∧ ch ≤ 102 then some (ch.toNat - 87)
  else if 65 ≤ ch ∧ ch ≤ 70 then some (ch.toNat - 55)
  else none

/-- Zeros for the two colons that have been seen behind so many bytes, and sixteen bytes in the
end. -/
def expand (out : List UInt8) (colon : Option ℕ) : Option (List UInt8) :=
  match colon with
  | some p =>
    if out.length < 16 then
      some (out.take p ++ List.replicate (16 - out.length) 0 ++ out.drop p)
    else none
  | none => if out.length = 16 then some out else none

/-- Read on behind the bytes `out`: `token` is the text from the last colon on, of which `seen`
digits have been read and make the number `val`. -/
def scan6 (out : List UInt8) (colon : Option ℕ) (token : List UInt8) (seen val : ℕ) :
    List UInt8 → Option (List UInt8)
  | [] =>
    if seen = 0 then expand out colon
    else if 16 < out.length + 2 then none
    else expand (out ++ wordBytes val) colon
  | ch :: src =>
    match hexValue ch with
    | some d => if seen = 4 then none else scan6 out colon token (seen + 1) (val * 16 + d) src
    | none =>
      if ch = 58 then
        if seen = 0 then
          if colon.isSome then none else scan6 out (some out.length) src 0 val src
        else if src = [] then none
        else if 16 < out.length + 2 then none
        else scan6 (out ++ wordBytes val) colon src 0 0 src
      else if ch = 46 ∧ out.length + 4 ≤ 16 then
        match inetPton4 token with
        | some addr => expand (out ++ addr) colon
        | none => none
      else none

/-- `inet_pton` for `AF_INET6`. -/
def inetPton6 (text : List UInt8) : Option (List UInt8) :=
  match text with
  | [] => none
  | ch :: src =>
    if ch = 58 then
      match src with
      | [] => none
      | ch' :: _ => if ch' = 58 then scan6 [] none src 0 0 src else none
    else scan6 [] none text 0 0 text

/-! ## What is written is read -/

variable {out token src : List UInt8} {colon : Option ℕ} {seen val : ℕ}

lemma hexValue_digit {d : ℕ} (h : d < 16) : hexValue (digit d) = some d := by
  interval_cases d <;> rfl

lemma scan6_digit {d : ℕ} (hd : d < 16) (hseen : seen ≠ 4) :
    scan6 out colon token seen val (digit d :: src) =
      scan6 out colon token (seen + 1) (val * 16 + d) src := by
  rw [scan6, hexValue_digit hd]
  exact if_neg hseen

/-- The digits of a number are hexadecimal digits, at most as many as there is room for. -/
lemma scan6_numeral (out : List UInt8) (colon : Option ℕ) (token : List UInt8) {base k n : ℕ}
    (hbase : base = 10 ∨ base = 16) (hk : k ≤ 4) (hn : n < base ^ k) (hpos : 0 < k) :
    ∃ seen val, 0 < seen ∧ seen ≤ k ∧ (base = 16 → val = n) ∧
      ∀ (src : List UInt8), scan6 out colon token 0 0 (numeral base n ++ src) =
        scan6 out colon token seen val src := by
  induction k generalizing n with
  | zero => exact absurd hpos (lt_irrefl 0)
  | succ k ih =>
    by_cases hlt : n < base
    · refine ⟨1, n, Nat.one_pos, Nat.succ_pos k, fun _ => rfl, fun src => ?_⟩
      rw [numeral_of_lt hlt]
      have hstep : scan6 out colon token 0 0 (digit n :: src) =
          scan6 out colon token (0 + 1) (0 * 16 + n) src :=
        scan6_digit (by omega) (by norm_num)
      rwa [Nat.zero_mul, Nat.zero_add, Nat.zero_add] at hstep
    · have hk0 : 0 < k := by
        rcases Nat.eq_zero_or_pos k with rfl | hk0
        · rw [pow_succ, pow_zero, one_mul] at hn
          exact absurd hn hlt
        · exact hk0
      have hdiv : n / base < base ^ k := by
        rw [Nat.div_lt_iff_lt_mul (by omega)]
        rwa [pow_succ] at hn
      obtain ⟨seen, val, hseen, hle, hval, hscan⟩ := ih (by omega) hdiv hk0
      have hmod : n % base < base := Nat.mod_lt n (by omega)
      refine ⟨seen + 1, val * 16 + n % base, Nat.succ_pos seen, by omega, fun h => ?_,
        fun src => ?_⟩
      · rw [hval h]
        subst h
        omega
      · rw [numeral_of_le (by omega) (not_lt.1 hlt), List.append_assoc, hscan]
        exact scan6_digit (by omega) (by omega)

lemma scan6_word (out : List UInt8) (colon : Option ℕ) (token : List UInt8) {w : ℕ}
    (hw : w < 65536) :
    ∃ seen, seen ≠ 0 ∧ ∀ src, scan6 out colon token 0 0 (numeral 16 w ++ src) =
      scan6 out colon token seen w src := by
  have hpow : w < 16 ^ 4 := hw
  obtain ⟨seen, val, hseen, -, hval, hscan⟩ :=
    scan6_numeral out colon token (.inr rfl) le_rfl hpow (by norm_num)
  obtain rfl := hval rfl
  exact ⟨seen, hseen.ne', hscan⟩

lemma scan6_colon (hseen : seen ≠ 0) (hsrc : src ≠ []) (hroom : out.length + 2 ≤ 16) :
    scan6 out colon token seen val (58 :: src) =
      scan6 (out ++ wordBytes val) colon src 0 0 src := by
  rw [scan6]
  exact (if_neg hseen).trans ((if_neg hsrc).trans (if_neg (not_lt.2 hroom)))

lemma length_append_wordBytes (out : List UInt8) (w : ℕ) :
    (out ++ wordBytes w).length = out.length + 2 := List.length_append

lemma joined_ne_nil {ws : List ℕ} (h : ws ≠ []) : joined ws ≠ [] := by
  cases ws with
  | nil => exact absurd rfl h
  | cons w ws =>
    cases ws with
    | nil => exact numeral_ne_nil 16 w
    | cons v ws => exact List.append_ne_nil_of_left_ne_nil (numeral_ne_nil 16 w) _

/-- Words at the end of the text. -/
lemma scan6_joined {ws : List ℕ} (hne : ws ≠ []) (hlt : ∀ w ∈ ws, w < 65536)
    (hroom : out.length + 2 * ws.length ≤ 16) :
    scan6 out colon token 0 0 (joined ws) = expand (out ++ ws.flatMap wordBytes) colon := by
  induction ws generalizing out token with
  | nil => exact absurd rfl hne
  | cons w ws ih =>
    rw [List.length_cons] at hroom
    cases ws with
    | nil =>
      obtain ⟨seen, hseen, hscan⟩ := scan6_word out colon token (hlt w List.mem_cons_self)
      have hend := hscan []
      rw [List.append_nil] at hend
      rw [joined, hend, scan6, if_neg hseen, if_neg (by rw [List.length_nil] at hroom; omega),
        List.flatMap_singleton]
    | cons v ws =>
      obtain ⟨seen, hseen, hscan⟩ := scan6_word out colon token (hlt w List.mem_cons_self)
      rw [joined, hscan, scan6_colon hseen (joined_ne_nil (List.cons_ne_nil v ws)) (by omega),
        ih (List.cons_ne_nil v ws) (fun u hu => hlt u (List.mem_cons_of_mem w hu))
          (by rw [length_append_wordBytes]; omega)]
      rw [List.flatMap_cons (x := w), List.append_assoc]

/-- Words with a colon and more behind them. -/
lemma scan6_joined_colon {ws : List ℕ} (hne : ws ≠ []) (hlt : ∀ w ∈ ws, w < 65536)
    (hsrc : src ≠ []) (hroom : out.length + 2 * ws.length ≤ 16) :
    scan6 out colon token 0 0 (joined ws ++ 58 :: src) =
      scan6 (out ++ ws.flatMap wordBytes) colon src 0 0 src := by
  induction ws generalizing out token with
  | nil => exact absurd rfl hne
  | cons w ws ih =>
    rw [List.length_cons] at hroom
    obtain ⟨seen, hseen, hscan⟩ := scan6_word out colon token (hlt w List.mem_cons_self)
    cases ws with
    | nil => rw [joined, hscan, scan6_colon hseen hsrc (by omega), List.flatMap_singleton]
    | cons v ws =>
      rw [joined, List.append_assoc, hscan, List.cons_append,
        scan6_colon hseen (List.append_ne_nil_of_right_ne_nil _ (List.cons_ne_nil 58 src))
          (by omega),
        ih (List.cons_ne_nil v ws) (fun u hu => hlt u (List.mem_cons_of_mem w hu))
          (by rw [length_append_wordBytes]; omega)]
      rw [List.flatMap_cons (x := w), List.append_assoc]

/-- The second of two colons. -/
lemma scan6_colon_colon : scan6 out none token 0 val (58 :: src) =
    scan6 out (some out.length) src 0 val src := rfl

lemma scan6_point {addr : List UInt8} (htoken : inetPton4 token = some addr)
    (hroom : out.length + 4 ≤ 16) :
    scan6 out colon token seen val (46 :: src) = expand (out ++ addr) colon := by
  rw [scan6]
  show (if (46 : UInt8) = 58 then _ else _) = _
  rw [if_neg (by decide), if_pos ⟨rfl, hroom⟩, htoken]

/-- An IPv4 address at the end of the text. -/
lemma scan6_inetNtop4 {addr : List UInt8} (haddr : addr.length = 4)
    (htoken : inetPton4 token = some addr) (hroom : out.length + 4 ≤ 16) :
    scan6 out colon token 0 0 (inetNtop4 addr) = expand (out ++ addr) colon := by
  obtain ⟨b, rest, rfl⟩ := List.exists_of_length_succ addr haddr
  obtain ⟨c, rest, rfl⟩ := List.exists_of_length_succ rest (Nat.succ.inj haddr)
  have hb : b.toNat < 10 ^ 3 := b.toNat_lt.trans (by norm_num)
  obtain ⟨seen, val, -, -, -, hscan⟩ :=
    scan6_numeral out colon token (.inl rfl) (by norm_num) hb (by norm_num)
  exact (hscan (46 :: dotted (c :: rest))).trans (scan6_point htoken hroom)

lemma expand_some {left right : List UInt8} {n : ℕ} (hn : 0 < n)
    (hlength : left.length + n + right.length = 16) :
    expand (left ++ right) (some left.length) =
      some (left ++ List.replicate n 0 ++ right) := by
  have hzeros : 16 - (left ++ right).length = n := by
    rw [List.length_append]
    omega
  rw [expand, if_pos (by rw [List.length_append]; omega), hzeros, List.take_left, List.drop_left]

/-- Words behind the two colons, which may be none. -/
lemma scan6_joined_some {p : ℕ} {ws : List ℕ} (hlt : ∀ w ∈ ws, w < 65536)
    (hroom : out.length + 2 * ws.length ≤ 16) :
    scan6 out (some p) token 0 0 (joined ws) = expand (out ++ ws.flatMap wordBytes) (some p) := by
  cases ws with
  | nil =>
    rw [List.flatMap_nil, List.append_nil]
    rfl
  | cons w ws => exact scan6_joined (List.cons_ne_nil w ws) hlt hroom

lemma mem_numeral {base n : ℕ} (hbase : 1 < base) {ch : UInt8} (h : ch ∈ numeral base n) :
    ∃ d < base, ch = digit d := by
  induction n using Nat.strong_induction_on with
  | _ n ih =>
    by_cases hlt : n < base
    · rw [numeral_of_lt hlt, List.mem_singleton] at h
      exact ⟨n, hlt, h⟩
    · rw [numeral_of_le hbase (not_lt.1 hlt), List.mem_append, List.mem_singleton] at h
      rcases h with h | h
      · exact ih (n / base) (Nat.div_lt_self (by omega) hbase) h
      · exact ⟨n % base, Nat.mod_lt n (by omega), h⟩

lemma digit_ne_colon {d : ℕ} (h : d < 16) : digit d ≠ 58 := by
  interval_cases d <;> decide

lemma inetPton6_of_ne {ch : UInt8} (h : ch ≠ 58) (src : List UInt8) :
    inetPton6 (ch :: src) = scan6 [] none (ch :: src) 0 0 (ch :: src) := if_neg h

/-- A text that begins with a word does not begin with a colon. -/
lemma inetPton6_joined {ws : List ℕ} (hne : ws ≠ []) (more : List UInt8) :
    inetPton6 (joined ws ++ more) =
      scan6 [] none (joined ws ++ more) 0 0 (joined ws ++ more) := by
  obtain ⟨w, ws, rfl⟩ := List.exists_cons_of_ne_nil hne
  obtain ⟨ch, src, hnumeral⟩ := List.exists_cons_of_ne_nil (numeral_ne_nil 16 w)
  have hch : ch ≠ 58 := by
    obtain ⟨d, hd, rfl⟩ := mem_numeral (by norm_num) (hnumeral ▸ List.mem_cons_self)
    exact digit_ne_colon hd
  have htext : ∃ src, joined (w :: ws) = ch :: src := by
    cases ws with
    | nil => exact ⟨src, hnumeral⟩
    | cons v ws => exact ⟨_, by rw [joined, hnumeral, List.cons_append]⟩
  obtain ⟨src', htext⟩ := htext
  rw [htext, List.cons_append]
  exact inetPton6_of_ne hch _

lemma inetPton6_colons (src : List UInt8) :
    inetPton6 (58 :: 58 :: src) = scan6 [] (some 0) src 0 0 src := rfl

lemma flatMap_wordBytes_zeros (n : ℕ) :
    (List.replicate n 0).flatMap wordBytes = List.replicate (2 * n) 0 := by
  induction n with
  | zero => rfl
  | succ n ih =>
    rw [List.replicate_succ, List.flatMap_cons, ih, Nat.mul_succ, Nat.add_comm,
      List.replicate_add]
    rfl

lemma length_flatMap_wordBytes (ws : List ℕ) : (ws.flatMap wordBytes).length = 2 * ws.length := by
  induction ws with
  | nil => rfl
  | cons w ws ih =>
    rw [List.flatMap_cons, List.length_append, ih, List.length_cons]
    show 2 + 2 * ws.length = _
    omega

/-- Words on both sides of a run of zeros. -/
lemma inetPton6_run {left right : List ℕ} {n : ℕ} (hn : 0 < n)
    (hlength : left.length + n + right.length = 8)
    (hlt : ∀ w ∈ left ++ right, w < 65536) :
    inetPton6 (joined left ++ 58 :: 58 :: joined right) =
      some ((left ++ List.replicate n 0 ++ right).flatMap wordBytes) := by
  have hleft (w : ℕ) (hw : w ∈ left) : w < 65536 := hlt w (List.mem_append_left right hw)
  have hright (w : ℕ) (hw : w ∈ right) : w < 65536 := hlt w (List.mem_append_right left hw)
  have hscan : inetPton6 (joined left ++ 58 :: 58 :: joined right) =
      scan6 (left.flatMap wordBytes) (some (left.flatMap wordBytes).length) (joined right) 0 0
        (joined right) := by
    cases left with
    | nil => exact inetPton6_colons _
    | cons w ws =>
      rw [inetPton6_joined (List.cons_ne_nil w ws),
        scan6_joined_colon (List.cons_ne_nil w ws) hleft (List.cons_ne_nil _ _)
          (by rw [List.length_nil]; omega)]
      exact scan6_colon_colon
  have hbytes :
      (left.flatMap wordBytes).length + 2 * n + (right.flatMap wordBytes).length = 16 := by
    rw [length_flatMap_wordBytes, length_flatMap_wordBytes]
    omega
  rw [hscan, scan6_joined_some hright (by rw [length_flatMap_wordBytes]; omega),
    expand_some (by omega) hbytes, List.flatMap_append, List.flatMap_append,
    flatMap_wordBytes_zeros]

/-- Zeros, two other bytes or none, and an IPv4 address. -/
lemma inetPton6_inet4 {middle addr : List UInt8} {text : List UInt8} (haddr : addr.length = 4)
    (hmiddle : middle = [] ∧ text = [] ∨
      middle = wordBytes 0xffff ∧ text = numeral 16 0xffff ++ [58]) :
    inetPton6 (58 :: 58 :: text ++ inetNtop4 addr) =
      some (List.replicate (12 - middle.length) 0 ++ middle ++ addr) := by
  have hpton : inetPton4 (inetNtop4 addr) = some addr := inetPton4_eq_some.2 ⟨haddr, rfl⟩
  have hne : inetNtop4 addr ≠ [] := by
    intro hnil
    rw [hnil] at hpton
    cases hpton
  have hscan : inetPton6 (58 :: 58 :: text ++ inetNtop4 addr) =
      expand (middle ++ addr) (some 0) := by
    rcases hmiddle with ⟨rfl, rfl⟩ | ⟨rfl, rfl⟩
    · exact scan6_inetNtop4 haddr hpton (by norm_num)
    · obtain ⟨seen, hseen, hscan⟩ := scan6_word [] (some 0)
        (numeral 16 0xffff ++ 58 :: inetNtop4 addr) (show 0xffff < 65536 by norm_num)
      rw [List.cons_append, List.cons_append, List.append_assoc, List.singleton_append,
        inetPton6_colons, hscan, scan6_colon hseen hne (by norm_num), List.nil_append]
      exact scan6_inetNtop4 haddr hpton (by norm_num [wordBytes])
  have hlength : middle.length ≤ 2 := by
    rcases hmiddle with ⟨rfl, -⟩ | ⟨rfl, -⟩
    · exact Nat.zero_le 2
    · exact le_refl 2
  have hexpand : expand ([] ++ (middle ++ addr)) (some ([] : List UInt8).length) =
      some ([] ++ List.replicate (12 - middle.length) 0 ++ (middle ++ addr)) :=
    expand_some (by omega) (by rw [List.length_append, List.length_nil, haddr]; omega)
  rw [hscan]
  rw [List.nil_append, List.length_nil, List.nil_append] at hexpand
  rw [hexpand, List.append_assoc]

/-- An address that is written is read again. -/
lemma inetPton6_inetNtop6 {addr : List UInt8} (h : addr.length = 16) :
    inetPton6 (inetNtop6 addr) = some addr := by
  have hbytes : (words addr).flatMap wordBytes = addr := flatMap_wordBytes (by rw [h])
  have hlength : (words addr).length = 8 := by rw [length_words, h]
  have hlt : ∀ w ∈ words addr, w < 65536 := fun w => word_lt
  unfold inetNtop6
  cases hbest : bestRun (words addr) with
  | none =>
    have hne : words addr ≠ [] := List.ne_nil_of_length_eq_add_one hlength
    have hread := inetPton6_joined hne []
    rw [List.append_nil] at hread
    rw [hread, scan6_joined hne hlt (by rw [hlength]; rfl), List.nil_append, hbytes]
    exact if_pos h
  | some run =>
    obtain ⟨left, right, hws, hbase⟩ := isRun_bestRun hbest
    have htwo := two_le_bestRun hbest
    have hsum : left.length + run.len + right.length = 8 := by
      rw [← hlength, hws, List.length_append, List.length_append, List.length_replicate]
    by_cases hinet4 : HoldsInet4 (words addr) run
    · dsimp only
      rw [if_pos hinet4]
      obtain ⟨hzero, hlen⟩ := hinet4
      obtain rfl : left = [] := List.length_eq_zero_iff.1 (hbase.trans hzero)
      rw [List.nil_append] at hws
      have haddr : addr = List.replicate (2 * run.len) 0 ++ right.flatMap wordBytes := by
        rw [← hbytes, hws, List.flatMap_append, flatMap_wordBytes_zeros]
      have hright : (right.flatMap wordBytes).length = 16 - 2 * run.len := by
        rw [length_flatMap_wordBytes]
        omega
      rcases hlen with hlen | ⟨hlen, hffff⟩
      · rw [hlen] at haddr hright
        have hdrop : addr.drop 12 = right.flatMap wordBytes := by
          rw [haddr]
          exact List.drop_left' List.length_replicate
        rw [if_pos hlen, hdrop, inetPton6_inet4 hright (.inl ⟨rfl, rfl⟩)]
        exact congrArg some haddr.symm
      · rw [hws, hlen] at hffff
        obtain ⟨rest, rfl⟩ : ∃ rest, right = 0xffff :: rest := by
          cases right with
          | nil => cases hffff
          | cons w rest => exact ⟨rest, congrArg (· :: rest) (Option.some.inj hffff)⟩
        rw [hlen, List.flatMap_cons] at haddr hright
        have hrest : (rest.flatMap wordBytes).length = 4 := by
          rw [List.length_append] at hright
          exact Nat.add_left_cancel hright
        have hdrop : addr.drop 12 = rest.flatMap wordBytes := by
          rw [haddr, ← List.append_assoc]
          exact List.drop_left' (by rw [List.length_append, List.length_replicate]; rfl)
        rw [if_neg (by omega), hdrop, inetPton6_inet4 hrest (.inr ⟨rfl, rfl⟩), haddr,
          List.append_assoc]
        rfl
    · have htake : (words addr).take run.base = left := by
        rw [hws, ← hbase, List.append_assoc, List.take_left]
      have hdrop : (words addr).drop (run.base + run.len) = right := by
        have hfront : run.base + run.len = (left ++ List.replicate run.len 0).length := by
          rw [List.length_append, List.length_replicate, hbase]
        rw [hws, hfront, List.drop_left]
      have hmem (w : ℕ) (hw : w ∈ left ++ right) : w < 65536 := by
        apply hlt
        rw [hws]
        rcases List.mem_append.1 hw with hw | hw
        · exact List.mem_append_left _ (List.mem_append_left _ hw)
        · exact List.mem_append_right _ hw
      dsimp only
      rw [if_neg hinet4, htake, hdrop, inetPton6_run (by omega) hsum hmem, ← hws, hbytes]

/-! ## How long an address is -/

lemma length_of_expand {addr : List UInt8} (h : expand out colon = some addr) :
    addr.length = 16 := by
  unfold expand at h
  cases colon with
  | none =>
    dsimp only at h
    split_ifs at h with hlength
    exact Option.some.inj h ▸ hlength
  | some p =>
    dsimp only at h
    split_ifs at h with hlength
    have hparts := congrArg List.length (List.take_append_drop p out)
    rw [List.length_append] at hparts
    rw [← Option.some.inj h, List.length_append, List.length_append, List.length_replicate]
    omega

lemma length_of_scan6 {addr : List UInt8} (h : scan6 out colon token seen val src = some addr) :
    addr.length = 16 := by
  induction src generalizing out colon token seen val with
  | nil =>
    rw [scan6] at h
    split_ifs at h
    · exact length_of_expand h
    · exact length_of_expand h
  | cons ch src ih =>
    rw [scan6] at h
    cases hd : hexValue ch with
    | some d =>
      rw [hd] at h
      dsimp only at h
      split_ifs at h
      exact ih h
    | none =>
      rw [hd] at h
      dsimp only at h
      split_ifs at h
      · exact ih h
      · exact ih h
      · cases htoken : inetPton4 token with
        | none =>
          rw [htoken] at h
          cases h
        | some addr4 =>
          rw [htoken] at h
          exact length_of_expand h

lemma length_of_inetPton6 {text addr : List UInt8} (h : inetPton6 text = some addr) :
    addr.length = 16 := by
  cases text with
  | nil => cases h
  | cons ch src =>
    by_cases hcolon : ch = 58
    · subst hcolon
      cases src with
      | nil => cases h
      | cons ch' src =>
        have hscan : (if ch' = 58 then scan6 [] none (ch' :: src) 0 0 (ch' :: src) else none) =
          some addr := h
        split_ifs at hscan
        exact length_of_scan6 hscan
    · rw [inetPton6_of_ne hcolon] at h
      exact length_of_scan6 h

/-! ## How long a text is -/

lemma length_numeral_le {base k n : ℕ} (hbase : 1 < base) (hk : 0 < k) (h : n < base ^ k) :
    (numeral base n).length ≤ k := by
  rw [numeral, List.length_map]
  exact (Nat.length_toDigits_le_iff hbase hk).2 h

lemma length_joined_le {ws : List ℕ} (h : ∀ w ∈ ws, w < 65536) :
    (joined ws).length ≤ 5 * ws.length := by
  induction ws using joined.induct with
  | case1 => exact Nat.zero_le _
  | case2 w =>
    have hw := length_numeral_le (by norm_num : 1 < 16) (by norm_num : 0 < 4) (h w (by simp))
    rw [joined, List.length_singleton]
    omega
  | case3 w v ws ih =>
    have hw := length_numeral_le (by norm_num : 1 < 16) (by norm_num : 0 < 4) (h w (by simp))
    have hrest := ih fun w' hw' => h w' (List.mem_cons_of_mem w hw')
    simp only [joined, List.length_append, List.length_cons] at hrest ⊢
    omega

lemma length_dotted_le (bytes : List UInt8) : (dotted bytes).length ≤ 4 * bytes.length := by
  have hone (b : UInt8) : (decimal b.toNat).length ≤ 3 :=
    (length_decimal_le_iff (by norm_num)).2 (b.toNat_lt.trans (by norm_num))
  induction bytes using dotted.induct with
  | case1 => exact Nat.zero_le _
  | case2 b =>
    have hb := hone b
    rw [dotted, List.length_singleton]
    omega
  | case3 b c bytes ih =>
    have hb := hone b
    simp only [dotted, List.length_append, List.length_cons] at ih ⊢
    omega

lemma length_inetNtop6_le {addr : List UInt8} (h : addr.length = 16) :
    (inetNtop6 addr).length ≤ 42 := by
  have hlength : (words addr).length = 8 := by rw [length_words, h]
  have hlt : ∀ w ∈ words addr, w < 65536 := fun w => word_lt
  unfold inetNtop6
  cases hbest : bestRun (words addr) with
  | none =>
    have hjoined := length_joined_le hlt
    dsimp only
    omega
  | some run =>
    dsimp only
    have hdotted := length_dotted_le (addr.drop 12)
    rw [List.length_drop, h] at hdotted
    split_ifs with hinet4 hsix
    · simp only [List.length_append, List.length_cons, List.length_nil, inetNtop4]
      omega
    · have hfour := length_numeral_le (by norm_num : 1 < 16) (by norm_num : 0 < 4)
        (by norm_num : 0xffff < 16 ^ 4)
      simp only [List.length_append, List.length_cons, List.length_nil, inetNtop4]
      omega
    · obtain ⟨left, right, hws, hbase⟩ := isRun_bestRun hbest
      have hsum : left.length + run.len + right.length = 8 := by
        rw [← hlength, hws, List.length_append, List.length_append, List.length_replicate]
      have hleft := length_joined_le fun w hw => hlt w (List.mem_of_mem_take (i := run.base) hw)
      have hright := length_joined_le fun w hw =>
        hlt w (List.mem_of_mem_drop (i := run.base + run.len) hw)
      rw [List.length_take] at hleft
      rw [List.length_drop] at hright
      simp only [List.length_append, List.length_cons]
      omega

/-! ## The letters of a text -/

/-- A letter of the text of an address. -/
def Letter (ch : UInt8) : Prop := (hexValue ch).isSome ∨ ch = 58 ∨ ch = 46

lemma letter_of_inetPton4 {text addr : List UInt8} (h : inetPton4 text = some addr) :
    ∀ ch ∈ text, Letter ch := by
  intro ch hch
  rw [(inetPton4_eq_some.1 h).2] at hch
  rcases mem_dotted hch with hdigit | hpoint
  · refine .inl ?_
    rw [hexValue, if_pos hdigit]
    rfl
  · exact .inr (.inr hpoint)

lemma letter_of_scan6 {addr : List UInt8} (hsuffix : src <:+ token)
    (h : scan6 out colon token seen val src = some addr) : ∀ ch ∈ src, Letter ch := by
  induction src generalizing out colon token seen val with
  | nil => exact fun ch hch => nomatch hch
  | cons ch src ih =>
    have hrest : src <:+ token := (List.suffix_cons ch src).trans hsuffix
    have hcons {p : UInt8 → Prop} (hch : p ch) (hsrc : ∀ c ∈ src, p c) : ∀ c ∈ ch :: src, p c :=
      List.forall_mem_cons.2 ⟨hch, hsrc⟩
    rw [scan6] at h
    cases hd : hexValue ch with
    | some d =>
      rw [hd] at h
      dsimp only at h
      split_ifs at h
      exact hcons (.inl (by rw [hd]; rfl)) (ih hrest h)
    | none =>
      rw [hd] at h
      dsimp only at h
      split_ifs at h with hcolon hseen hsome hnil hroom hpoint
      · exact hcons (.inr (.inl hcolon)) (ih List.suffix_rfl h)
      · exact hcons (.inr (.inl hcolon)) (ih List.suffix_rfl h)
      · cases htoken : inetPton4 token with
        | none =>
          rw [htoken] at h
          cases h
        | some addr4 => exact fun c hc => letter_of_inetPton4 htoken c (hsuffix.subset hc)

lemma letter_of_inetPton6 {text addr : List UInt8} (h : inetPton6 text = some addr) :
    ∀ ch ∈ text, Letter ch := by
  cases text with
  | nil => cases h
  | cons ch src =>
    by_cases hcolon : ch = 58
    · subst hcolon
      cases src with
      | nil => cases h
      | cons ch' src =>
        have hscan : (if ch' = 58 then scan6 [] none (ch' :: src) 0 0 (ch' :: src) else none) =
          some addr := h
        split_ifs at hscan
        exact List.forall_mem_cons.2 ⟨.inr (.inl rfl), letter_of_scan6 List.suffix_rfl hscan⟩
    · rw [inetPton6_of_ne hcolon] at h
      exact letter_of_scan6 List.suffix_rfl h

/-- A text that is written has no zero in it. -/
lemma zero_notMem_inetNtop6 {addr : List UInt8} (h : addr.length = 16) : 0 ∉ inetNtop6 addr := by
  intro hmem
  rcases letter_of_inetPton6 (inetPton6_inetNtop6 h) 0 hmem with hhex | hcolon | hpoint
  · exact absurd hhex (by decide)
  · exact absurd hcolon (by decide)
  · exact absurd hpoint (by decide)

end Inet
