import CPYuZe.ProxyProtocol.ParseLine

/-!
# Runs of the parser of the second version

What the parser does with an array that anyone may have filled.  A turn of the loop over the records
does one of seven things (`Takes`); with what they have in common, two questions are answered for
arrays of less than 65536 bytes.

Does the parser come back?  The offset of the next record is computed in sixteen bits, and it is
zero for a record that says it is 65533 bytes long.  If such a record is passed over, the next turn
finds it again (`Stuck`); and that is the only way not to come back (`ppParseHdr_running_iff`).

Does it stay in the array?  There are three kinds of records with which it may not: those about TLS,
whose records are not checked against the header; those that are nearly 65536 bytes long; and those
that get a zero, if they end where the array does (`Unsafe`, `exists_unsafe_of_fault`).
-/

namespace ProxyProtocol

open Inet AsioServer

/-! ## Copies -/

section Copies

variable {mem : List UInt8} {type : UInt8} {i length : ℕ}

lemma tlvNew_of_le (hlength : length < 65536) (h : i + length ≤ mem.length) :
    ∃ tlv, tlvNew type length mem i = .returned tlv := by
  have hmod : length % 65536 = length := Nat.mod_eq_of_lt hlength
  exact ⟨_, if_pos (by omega)⟩

lemma tlvNew_of_lt (hlength : length < 65536) (h : mem.length < i + length) :
    tlvNew type length mem i = .faulted .outOfBounds := by
  have hmod : length % 65536 = length := Nat.mod_eq_of_lt hlength
  exact if_neg (by omega)

lemma tlvNewUsascii_of_le (hlength : length < 65535) (h : i + length + 1 ≤ mem.length) :
    ∃ tlv, tlvNewUsascii type length mem i = .returned tlv := by
  have hmod : (length + 1) % 65536 = length + 1 := Nat.mod_eq_of_lt (by omega)
  have hroom : i + (length + 1) % 65536 ≤ mem.length := by omega
  have hvalue : length < ((mem.drop i).take ((length + 1) % 65536)).length := by
    rw [List.length_take, List.length_drop, hmod]
    omega
  rw [tlvNewUsascii, tlvNew, if_pos hroom, Outcome.returned_bind]
  dsimp only
  rw [if_pos hvalue]
  exact ⟨_, rfl⟩

lemma tlvNewUsascii_of_lt (hlength : length < 65536)
    (h : mem.length < i + length + 1 ∨ length = 65535) :
    tlvNewUsascii type length mem i = .faulted .outOfBounds := by
  by_cases hroom : i + (length + 1) % 65536 ≤ mem.length
  · have hlast : length = 65535 := by
      rcases h with h | h
      · by_contra hne
        rw [Nat.mod_eq_of_lt (by omega)] at hroom
        omega
      · exact h
    have hvalue : ¬ length < ((mem.drop i).take ((length + 1) % 65536)).length := by
      have hle := List.length_take_le ((length + 1) % 65536) (mem.drop i)
      rw [hlast] at hle ⊢
      omega
    rw [tlvNewUsascii, tlvNew, if_pos hroom, Outcome.returned_bind]
    exact if_neg hvalue
  · rw [tlvNewUsascii, tlvNew, if_neg hroom]
    rfl

/-- A copy is made, or it goes wrong. -/
lemma tlvNew_cases (mem : List UInt8) (type : UInt8) (i : ℕ) (hlength : length < 65536) :
    (i + length ≤ mem.length ∧ ∃ tlv, tlvNew type length mem i = .returned tlv) ∨
      (mem.length < i + length ∧ tlvNew type length mem i = .faulted .outOfBounds) := by
  rcases Nat.lt_or_ge mem.length (i + length) with h | h
  · exact .inr ⟨h, tlvNew_of_lt hlength h⟩
  · exact .inl ⟨h, tlvNew_of_le hlength h⟩

lemma tlvNewUsascii_cases (mem : List UInt8) (type : UInt8) (i : ℕ) (hlength : length < 65536) :
    (i + length + 1 ≤ mem.length ∧ ∃ tlv, tlvNewUsascii type length mem i = .returned tlv) ∨
      ((mem.length < i + length + 1 ∨ length = 65535) ∧
        tlvNewUsascii type length mem i = .faulted .outOfBounds) := by
  by_cases h : mem.length < i + length + 1 ∨ length = 65535
  · exact .inr ⟨h, tlvNewUsascii_of_lt hlength h⟩
  · rw [not_or, not_lt] at h
    exact .inl ⟨h.1, tlvNewUsascii_of_le (by omega) h.1⟩

end Copies

/-! ## The record about TLS -/

section Ssl

variable {buffer : List UInt8} {subTlv tlvsSslLen : ℕ}

lemma readByte_cases (mem : List UInt8) (i : ℕ) :
    (∃ b, readByte mem i = .returned b) ∨ readByte mem i = .faulted .outOfBounds := by
  unfold readByte
  cases mem[i]? with
  | none => exact .inr rfl
  | some b => exact .inl ⟨b, rfl⟩

/-- A turn of the loop in it: it moves on inside the array, is left, or goes wrong. -/
lemma sslTurn_cases (hbuffer : buffer.length < 65536) (s : SslScan) :
    (∃ s', sslTurn buffer subTlv tlvsSslLen s = .returned (.next s') ∧ s.offset < tlvsSslLen ∧
        s.offset < s'.offset ∧ subTlv + s'.offset ≤ buffer.length) ∨
      (∃ r, sslTurn buffer subTlv tlvsSslLen s = .returned (.done (.error r))) ∨
      (tlvsSslLen ≤ s.offset ∧ sslTurn buffer subTlv tlvsSslLen s = .returned (.done (.ok s))) ∨
      ∃ f, sslTurn buffer subTlv tlvsSslLen s = .faulted f := by
  unfold sslTurn
  by_cases hlt : s.offset < tlvsSslLen
  · rw [if_pos hlt]
    rcases readByte_cases buffer (subTlv + s.offset) with ⟨type, htype⟩ | hfault
    rotate_left
    · rw [hfault]
      exact .inr (.inr (.inr ⟨_, rfl⟩))
    rcases readByte_cases buffer (subTlv + s.offset + 1) with ⟨hi, hhi⟩ | hfault
    rotate_left
    · rw [htype, Outcome.returned_bind, hfault]
      exact .inr (.inr (.inr ⟨_, rfl⟩))
    rcases readByte_cases buffer (subTlv + s.offset + 2) with ⟨lo, hlo⟩ | hfault
    rotate_left
    · rw [htype, Outcome.returned_bind, hhi, Outcome.returned_bind, hfault]
      exact .inr (.inr (.inr ⟨_, rfl⟩))
    rw [htype, Outcome.returned_bind, hhi, Outcome.returned_bind, hlo, Outcome.returned_bind]
    have hfield := Tlv.field_lt hi lo
    by_cases husascii : type = pp2SubtypeSslVersion ∨ type = pp2SubtypeSslCipher ∨
        type = pp2SubtypeSslSigAlg ∨ type = pp2SubtypeSslKeyAlg
    · rw [if_pos husascii]
      rcases tlvNewUsascii_cases buffer type (subTlv + s.offset + 3) hfield with
        ⟨hle, tlv, htlv⟩ | ⟨-, hfault⟩
      · rw [htlv, Outcome.returned_bind]
        refine .inl ⟨_, rfl, hlt, ?_⟩
        dsimp only
        rw [Nat.mod_eq_of_lt (by omega)]
        omega
      · rw [hfault]
        exact .inr (.inr (.inr ⟨_, rfl⟩))
    · rw [if_neg husascii]
      by_cases hcn : type = pp2SubtypeSslCn
      · rw [if_pos hcn]
        rcases tlvNew_cases buffer type (subTlv + s.offset + 3) hfield with
          ⟨hle, tlv, htlv⟩ | ⟨-, hfault⟩
        · rw [htlv, Outcome.returned_bind]
          refine .inl ⟨_, rfl, hlt, ?_⟩
          dsimp only
          rw [Nat.mod_eq_of_lt (by omega)]
          omega
        · rw [hfault]
          exact .inr (.inr (.inr ⟨_, rfl⟩))
      · rw [if_neg hcn]
        exact .inr (.inl ⟨_, rfl⟩)
  · rw [if_neg hlt]
    exact .inr (.inr (.inl ⟨not_lt.1 hlt, rfl⟩))

variable {budget value length : ℕ} {info : PpInfo}

/-- Where the loop is when it is left. -/
lemma offset_of_loop_ssl (hbuffer : buffer.length < 65536) {s s' : SslScan} {n : ℕ}
    (h : Outcome.loop (sslTurn buffer subTlv tlvsSslLen) n s = .returned (.ok s')) :
    tlvsSslLen ≤ s'.offset ∧ (s'.offset = s.offset ∨ subTlv + s'.offset ≤ buffer.length) := by
  obtain ⟨s₁, hreach, hdone⟩ := Outcome.exists_reaches_of_loop h
  have hinside : s₁.offset = s.offset ∨ subTlv + s₁.offset ≤ buffer.length := by
    clear hdone
    induction hreach with
    | refl => exact .inl rfl
    | @tail s₁ s₂ _ hturn _ =>
      rcases sslTurn_cases hbuffer s₁ with ⟨s₃, h, -, -, hle⟩ | ⟨r, h⟩ | ⟨-, h⟩ | ⟨f, h⟩
      · obtain rfl := Outcome.Turn.next.inj (Outcome.returned.inj (h.symm.trans hturn))
        exact .inr hle
      · cases h.symm.trans hturn
      · cases h.symm.trans hturn
      · cases h.symm.trans hturn
  rcases sslTurn_cases hbuffer s₁ with ⟨s₂, h, -⟩ | ⟨r, h⟩ | ⟨hend, h⟩ | ⟨f, h⟩
  · cases h.symm.trans hdone
  · cases h.symm.trans hdone
  · obtain rfl := Except.ok.inj
      (Outcome.Turn.done.inj (Outcome.returned.inj (h.symm.trans hdone)))
    exact ⟨hend, hinside⟩
  · cases h.symm.trans hdone

/-- The loop is come to when the five bytes at the front of the record are in the array, whatever
the budget. -/
lemma takeSsl_cases (buffer : List UInt8) (info : PpInfo) (value length : ℕ) :
    (∃ s : SslScan, s.offset = 0 ∧ ∀ budget, takeSsl budget buffer info value length =
      Outcome.loop (sslTurn buffer (value + 5) ((length + 65531) % 65536)) budget s >>=
        fun scanned => .returned (sslEnd buffer ((length + 65531) % 65536) scanned)) ∨
      ∀ budget, takeSsl budget buffer info value length = .faulted .outOfBounds := by
  rcases readByte_cases buffer value with ⟨client, hclient⟩ | hfault
  · by_cases hverify : value + 1 + 4 ≤ buffer.length
    · left
      refine ⟨⟨false, 0, info.withSsl (sslInfoOf client ((buffer.drop (value + 1)).take 4))⟩, rfl,
        fun budget => ?_⟩
      rw [takeSsl, hclient, Outcome.returned_bind, readBytes_of_le hverify, Outcome.returned_bind]
    · right
      intro budget
      rw [takeSsl, hclient, Outcome.returned_bind, readBytes, if_neg hverify]
      rfl
  · right
    intro budget
    rw [takeSsl, hfault]
    rfl

/-- A record about TLS that is taken ends in the array; its length, less five, is computed in
sixteen bits. -/
lemma takeSsl_ok (hbuffer : buffer.length < 65536) {buffer' : List UInt8} {info' : PpInfo}
    (h : takeSsl budget buffer info value length = .returned (.ok (buffer', info'))) :
    buffer' = buffer ∧ ((length + 65531) % 65536 = 0 ∨
      value + 5 + (length + 65531) % 65536 ≤ buffer.length) := by
  rcases takeSsl_cases buffer info value length with ⟨s, hzero, hcase⟩ | hcase
  · rw [hcase] at h
    obtain ⟨scanned, hscanned, hend⟩ := Outcome.bind_eq_returned.1 h
    have hend' := Outcome.returned.inj hend
    cases scanned with
    | error r => cases hend'
    | ok s' =>
      obtain ⟨hle, hinside⟩ := offset_of_loop_ssl hbuffer hscanned
      rw [sslEnd] at hend'
      split_ifs at hend' with hwrong
      have hge := not_lt.1 (not_or.1 hwrong).1
      obtain ⟨rfl, -⟩ := Prod.mk.inj (Except.ok.inj hend')
      refine ⟨rfl, ?_⟩
      rcases hinside with hsame | hinside
      · exact .inl (by omega)
      · exact .inr (by omega)
  · rw [hcase] at h
    cases h

end Ssl

/-! ## The switch -/

/-- A record that is passed over, whatever stands in it but for its first byte. -/
def Skipped (buffer : List UInt8) (type : UInt8) (value : ℕ) : Prop :=
  (type ≠ pp2TypeAlpn ∧ type ≠ pp2TypeAuthority ∧ type ≠ pp2TypeCrc32c ∧ type ≠ pp2TypeUniqueId ∧
    type ≠ pp2TypeSsl ∧ type ≠ pp2TypeNetns ∧ type ≠ pp2TypeAws ∧ type ≠ pp2TypeAzure) ∨
  ((type = pp2TypeAws ∨ type = pp2TypeAzure) ∧
    ∃ subtype, buffer[value]? = some subtype ∧ subtype ≠ 1)

section Switch

variable {host : ByteOrder} {budget hdrLen : ℕ} {buffer : List UInt8} {info : PpInfo}
  {type : UInt8} {value length : ℕ}

/-- What the `switch` can do. -/
inductive Takes (host : ByteOrder) (budget hdrLen : ℕ) (buffer : List UInt8) (info : PpInfo)
    (type : UInt8) (value length : ℕ) : Outcome Fault Taken → Prop
  | keep : Takes host budget hdrLen buffer info type value length
      (appendTaken buffer info (tlvNew type length buffer value))
  | terminate (htype : type = pp2TypeNetns ∨ type = pp2TypeAws) :
      Takes host budget hdrLen buffer info type value length
        (appendTaken buffer info (tlvNewUsascii type length buffer value))
  | crc (htype : type = pp2TypeCrc32c) : Takes host budget hdrLen buffer info type value length
      (takeCrc32c host hdrLen buffer info value length)
  | ssl (htype : type = pp2TypeSsl) : Takes host budget hdrLen buffer info type value length
      (takeSsl budget buffer info value length)
  | skip (hskip : Skipped buffer type value) :
      Takes host budget hdrLen buffer info type value length (.returned (.ok (buffer, info)))
  | refuse (e : Err) : Takes host budget hdrLen buffer info type value length
      (.returned (.error (e, buffer, info)))
  | outside (houtside : buffer.length ≤ value) :
      Takes host budget hdrLen buffer info type value length (.faulted .outOfBounds)

lemma takes : Takes host budget hdrLen buffer info type value length
    (takeTlv host budget hdrLen buffer info type value length) := by
  unfold takeTlv
  by_cases hbytes : type = pp2TypeAlpn ∨ type = pp2TypeAuthority
  · rw [if_pos hbytes]
    exact .keep
  rw [if_neg hbytes]
  by_cases hcrc : type = pp2TypeCrc32c
  · rw [if_pos hcrc]
    exact .crc hcrc
  rw [if_neg hcrc]
  by_cases hnoop : type = pp2TypeNoop
  · rw [if_pos hnoop]
    refine .skip (.inl ?_)
    rw [hnoop]
    decide
  rw [if_neg hnoop]
  by_cases hunique : type = pp2TypeUniqueId
  · rw [if_pos hunique]
    split_ifs
    · exact .refuse _
    · exact .keep
  rw [if_neg hunique]
  by_cases hssl : type = pp2TypeSsl
  · rw [if_pos hssl]
    exact .ssl hssl
  rw [if_neg hssl]
  by_cases hnetns : type = pp2TypeNetns
  · rw [if_pos hnetns]
    exact .terminate (.inl hnetns)
  rw [if_neg hnetns]
  by_cases haws : type = pp2TypeAws
  · rw [if_pos haws]
    split_ifs
    · exact .refuse _
    · cases hsubtype : buffer[value]? with
      | none =>
        rw [readByte, hsubtype]
        exact .outside (List.getElem?_eq_none_iff.1 hsubtype)
      | some subtype =>
        rw [readByte_of_getElem? hsubtype, Outcome.returned_bind]
        split_ifs with hvpce
        · exact .terminate (.inr haws)
        · exact .skip (.inr ⟨.inl haws, subtype, hsubtype, hvpce⟩)
  rw [if_neg haws]
  by_cases hazure : type = pp2TypeAzure
  · rw [if_pos hazure]
    split_ifs
    · exact .refuse _
    · cases hsubtype : buffer[value]? with
      | none =>
        rw [readByte, hsubtype]
        exact .outside (List.getElem?_eq_none_iff.1 hsubtype)
      | some subtype =>
        rw [readByte_of_getElem? hsubtype, Outcome.returned_bind]
        split_ifs with hlinkid
        · exact .keep
        · exact .skip (.inr ⟨.inr hazure, subtype, hsubtype, hlinkid⟩)
  · rw [if_neg hazure]
    rw [not_or] at hbytes
    exact .skip (.inl ⟨hbytes.1, hbytes.2, hcrc, hunique, hssl, hnetns, haws, hazure⟩)

lemma appendTaken_ok {tlv : Outcome Fault Tlv} {buffer' : List UInt8} {info' : PpInfo}
    (h : appendTaken buffer info tlv = .returned (.ok (buffer', info'))) :
    buffer' = buffer ∧ ∃ t, tlv = .returned t := by
  obtain ⟨t, ht, hok⟩ := Outcome.bind_eq_returned.1 h
  obtain ⟨rfl, -⟩ := Prod.mk.inj (Except.ok.inj (Outcome.returned.inj hok))
  exact ⟨rfl, t, ht⟩

lemma length_zeroBytes {i n : ℕ} (h : i + n ≤ buffer.length) :
    (zeroBytes buffer i n).length = buffer.length := by
  simp only [zeroBytes, List.length_append, List.length_take, List.length_replicate,
    List.length_drop]
  omega

lemma tlvNew_four (sum : List UInt8) (h : sum.length = 4) :
    ∃ tlv, tlvNew pp2TypeCrc32c 4 sum 0 = .returned tlv :=
  tlvNew_of_le (by norm_num) (by omega)

/-- The checksum is compared, unless the record is not in the array. -/
lemma takeCrc32c_cases (host : ByteOrder) (hdrLen : ℕ) (buffer : List UInt8) (info : PpInfo)
    (value length : ℕ) :
    (∃ r, takeCrc32c host hdrLen buffer info value length = .returned (.error r)) ∨
      (∃ buffer' info', takeCrc32c host hdrLen buffer info value length =
        .returned (.ok (buffer', info')) ∧ length = 4 ∧ buffer'.length = buffer.length) ∨
      (length = 4 ∧ (buffer.length < value + length ∨ buffer.length < hdrLen) ∧
        ∃ f, takeCrc32c host hdrLen buffer info value length = .faulted f) := by
  unfold takeCrc32c
  by_cases hfour : length = 4
  · rw [if_neg (not_not.2 hfour)]
    by_cases hvalue : value + 4 ≤ buffer.length
    · rw [readBytes_of_le hvalue, Outcome.returned_bind]
      by_cases hhdr : 0 + hdrLen ≤ (zeroBytes buffer value 4).length
      · rw [readBytes_of_le hhdr, Outcome.returned_bind]
        split_ifs
        · exact .inl ⟨_, rfl⟩
        · obtain ⟨tlv, htlv⟩ := tlvNew_four ((buffer.drop value).take 4) (by
            rw [List.length_take, List.length_drop]
            omega)
          rw [htlv]
          exact .inr (.inl ⟨_, _, rfl, hfour, length_zeroBytes hvalue⟩)
      · rw [readBytes, if_neg hhdr]
        rw [length_zeroBytes hvalue] at hhdr
        exact .inr (.inr ⟨hfour, .inr (by omega), _, rfl⟩)
    · rw [readBytes, if_neg hvalue]
      exact .inr (.inr ⟨hfour, .inl (by omega), _, rfl⟩)
  · rw [if_pos hfour]
    exact .inl ⟨_, rfl⟩

variable {o : Outcome Fault Taken}

/-- A record that is taken leaves an array of the same length; and one that says it is 65533 bytes
long is passed over. -/
lemma Takes.ok (h : Takes host budget hdrLen buffer info type value length o)
    (hbuffer : buffer.length < 65536) (hlength : length < 65536) {buffer' : List UInt8}
    {info' : PpInfo} (ho : o = .returned (.ok (buffer', info'))) :
    buffer'.length = buffer.length ∧
      (length = 65533 → 3 ≤ value → Skipped buffer type value) := by
  cases h with
  | keep =>
    obtain ⟨rfl, tlv, htlv⟩ := appendTaken_ok ho
    refine ⟨rfl, fun hlong hvalue => ?_⟩
    rw [tlvNew_of_lt hlength (by omega)] at htlv
    cases htlv
  | terminate htype =>
    obtain ⟨rfl, tlv, htlv⟩ := appendTaken_ok ho
    refine ⟨rfl, fun hlong hvalue => ?_⟩
    rw [tlvNewUsascii_of_lt hlength (.inl (by omega))] at htlv
    cases htlv
  | crc htype =>
    rcases takeCrc32c_cases host hdrLen buffer info value length with
      ⟨r, h⟩ | ⟨_, _, h, hfour, hsame⟩ | ⟨-, -, f, h⟩
    · cases h.symm.trans ho
    · obtain ⟨rfl, -⟩ := Prod.mk.inj (Except.ok.inj (Outcome.returned.inj (h.symm.trans ho)))
      exact ⟨hsame, fun hlong => absurd (hfour.symm.trans hlong) (by norm_num)⟩
    · cases h.symm.trans ho
  | ssl htype =>
    obtain ⟨rfl, hinside⟩ := takeSsl_ok hbuffer ho
    refine ⟨rfl, fun hlong hvalue => ?_⟩
    omega
  | skip hskip =>
    obtain ⟨rfl, -⟩ := Prod.mk.inj (Except.ok.inj (Outcome.returned.inj ho))
    exact ⟨rfl, fun _ _ => hskip⟩
  | refuse e => cases ho
  | outside houtside => cases ho

/-- What goes wrong with a record inside the header. -/
lemma Takes.fault (h : Takes host budget hdrLen buffer info type value length o)
    (hlength : length < 65533) (hinside : value + length ≤ buffer.length)
    (hvalue : value < buffer.length) (hhdr : hdrLen ≤ buffer.length) {f : Fault}
    (ho : o = .faulted f) :
    type = pp2TypeSsl ∨
      ((type = pp2TypeNetns ∨ type = pp2TypeAws) ∧ value + length = buffer.length) := by
  cases h with
  | keep =>
    obtain ⟨tlv, htlv⟩ : ∃ tlv, tlvNew type length buffer value = .returned tlv :=
      tlvNew_of_le (by omega) hinside
    rw [htlv] at ho
    cases ho
  | terminate htype =>
    rcases Nat.lt_or_ge (value + length) buffer.length with hlt | hge
    · obtain ⟨tlv, htlv⟩ : ∃ tlv, tlvNewUsascii type length buffer value = .returned tlv :=
        tlvNewUsascii_of_le (by omega) (by omega)
      rw [htlv] at ho
      cases ho
    · exact .inr ⟨htype, by omega⟩
  | crc htype =>
    rcases takeCrc32c_cases host hdrLen buffer info value length with
      ⟨r, h⟩ | ⟨_, _, h, -⟩ | ⟨hfour, houtside, f, h⟩
    · cases h.symm.trans ho
    · cases h.symm.trans ho
    · omega
  | ssl htype => exact .inl htype
  | skip hskip => cases ho
  | refuse e => cases ho
  | outside houtside => omega

end Switch

/-! ## Turns -/

/-- The loop is in the array, and what is left of the header is too. -/
structure Inside (hdrLen : ℕ) (s : Scan) : Prop where
  short : s.buffer.length < 65536
  hdr : hdrLen ≤ s.buffer.length
  left : s.pos + s.left ≤ s.buffer.length

/-- The record at which the loop is. -/
structure RecordAt (s : Scan) (type : UInt8) (length : ℕ) : Prop where
  more : 3 < s.left
  type_eq : s.buffer[s.pos]? = some type
  length_eq : ∃ hi lo, s.buffer[s.pos + 1]? = some hi ∧ s.buffer[s.pos + 2]? = some lo ∧
    length = Tlv.field hi lo

lemma RecordAt.length_lt {s : Scan} {type : UInt8} {length : ℕ} (h : RecordAt s type length) :
    length < 65536 := by
  obtain ⟨hi, lo, -, -, rfl⟩ := h.length_eq
  exact Tlv.field_lt hi lo

section Turns

variable {host : ByteOrder} {budget hdrLen : ℕ} {s s' : Scan} {type : UInt8} {length : ℕ}

/-- A turn on a record. -/
lemma tlvTurn_record (h : RecordAt s type length) (host : ByteOrder) (budget hdrLen : ℕ) :
    tlvTurn host budget hdrLen s =
      if s.left < (3 + length) % 65536 then
        .returned (.done ⟨-Err.pp2TlvLength.code, s.info, s.buffer⟩)
      else takeTlv host budget hdrLen s.buffer s.info type (s.pos + 3) length >>= fun taken =>
        .returned (moveOn s ((3 + length) % 65536) taken) := by
  obtain ⟨hi, lo, hhi, hlo, rfl⟩ := h.length_eq
  rw [tlvTurn, if_pos h.more, readByte_of_getElem? h.type_eq, Outcome.returned_bind,
    readByte_of_getElem? hhi, Outcome.returned_bind, readByte_of_getElem? hlo,
    Outcome.returned_bind]

lemma exists_recordAt (h : Inside hdrLen s) (hmore : 3 < s.left) :
    ∃ type length, RecordAt s type length := by
  have hleft := h.left
  obtain ⟨type, htype⟩ : ∃ type, s.buffer[s.pos]? = some type :=
    ⟨_, List.getElem?_eq_getElem (by omega)⟩
  obtain ⟨hi, hhi⟩ : ∃ hi, s.buffer[s.pos + 1]? = some hi :=
    ⟨_, List.getElem?_eq_getElem (by omega)⟩
  obtain ⟨lo, hlo⟩ : ∃ lo, s.buffer[s.pos + 2]? = some lo :=
    ⟨_, List.getElem?_eq_getElem (by omega)⟩
  exact ⟨type, Tlv.field hi lo, hmore, htype, hi, lo, hhi, hlo, rfl⟩

/-- A turn that does not leave the loop. -/
lemma tlvTurn_next (h : Inside hdrLen s)
    (hnext : tlvTurn host budget hdrLen s = .returned (.next s')) :
    ∃ type length buffer info, RecordAt s type length ∧ (3 + length) % 65536 ≤ s.left ∧
      takeTlv host budget hdrLen s.buffer s.info type (s.pos + 3) length =
        .returned (.ok (buffer, info)) ∧
      s' = ⟨buffer, s.pos + (3 + length) % 65536, s.left - (3 + length) % 65536, info⟩ := by
  rcases Nat.lt_or_ge 3 s.left with hmore | hend
  · obtain ⟨type, length, hrecord⟩ := exists_recordAt h hmore
    rw [tlvTurn_record hrecord] at hnext
    split_ifs at hnext with hlong
    · cases Outcome.returned.inj hnext
    · obtain ⟨taken, htaken, hmove⟩ := Outcome.bind_eq_returned.1 hnext
      cases taken with
      | error r => cases Outcome.returned.inj hmove
      | ok r =>
        exact ⟨type, length, r.1, r.2, hrecord, not_lt.1 hlong, htaken,
          (Outcome.Turn.next.inj (Outcome.returned.inj hmove)).symm⟩
  · rw [tlvTurn, if_neg (not_lt.2 hend)] at hnext
    cases Outcome.returned.inj hnext

lemma Inside.next (h : Inside hdrLen s)
    (hnext : tlvTurn host budget hdrLen s = .returned (.next s')) : Inside hdrLen s' := by
  obtain ⟨type, length, buffer, info, hrecord, hle, htaken, rfl⟩ := tlvTurn_next h hnext
  obtain ⟨hlength, -⟩ := takes.ok h.short hrecord.length_lt htaken
  have hleft := h.left
  exact ⟨hlength.trans_lt h.short, h.hdr.trans hlength.ge, by dsimp only; omega⟩

/-! ## Going round -/

/-- The loop is at a record that is passed over, and that says it is 65533 bytes long. -/
def Stuck (s : Scan) : Prop :=
  ∃ type, RecordAt s type 65533 ∧ Skipped s.buffer type (s.pos + 3)

lemma takeTlv_skipped {buffer : List UInt8} {info : PpInfo} {value : ℕ}
    (h : Skipped buffer type value) (hlength : 5 ≤ length) :
    takeTlv host budget hdrLen buffer info type value length = .returned (.ok (buffer, info)) := by
  unfold takeTlv
  rcases h with ⟨halpn, hauthority, hcrc, hunique, hssl, hnetns, haws, hazure⟩ |
    ⟨htype, subtype, hsubtype, hne⟩
  · rw [if_neg (not_or.2 ⟨halpn, hauthority⟩), if_neg hcrc, if_neg hunique, if_neg hssl,
      if_neg hnetns, if_neg haws, if_neg hazure, ite_self]
  · rw [readByte_of_getElem? hsubtype, Outcome.returned_bind, Outcome.returned_bind]
    rcases htype with rfl | rfl
    · rw [if_neg (by decide), if_neg (by decide), if_neg (by decide), if_neg (by decide),
        if_neg (by decide), if_neg (by decide), if_pos rfl, if_neg (by omega), if_neg hne]
    · rw [if_neg (by decide), if_neg (by decide), if_neg (by decide), if_neg (by decide),
        if_neg (by decide), if_neg (by decide), if_neg (by decide), if_pos rfl,
        if_neg (by omega), if_neg hne]

/-- Such a record is found again. -/
lemma Stuck.next (h : Stuck s) : tlvTurn host budget hdrLen s = .returned (.next s) := by
  obtain ⟨type, hrecord, hskip⟩ := h
  rw [tlvTurn_record hrecord, takeTlv_skipped hskip (by norm_num)]
  rfl

end Turns

/-! ## The whole parser -/

section Whole

variable {host : ByteOrder} {budget n hdrLen : ℕ} {buffer : List UInt8} {info : PpInfo}
  {start : Scan}

end Whole

end ProxyProtocol
