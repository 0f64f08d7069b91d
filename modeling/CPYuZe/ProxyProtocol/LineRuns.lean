import CPYuZe.ProxyProtocol.AcceptedLines

/-!
# Faults and errors of the parsers

The block of the first version has a zero in it if there are fewer bytes than 108, and then every
search ends in it.  The arrays that are left are those of the ports, with six characters: the parser
writes past the end of one if the port is longer than that, and reads past it if the port is as long
as that and nothing but a number (`Overlong`).  `pp1ParseHdr_faulted_iff` says for which lines it
comes to such a port.

What the parsers of both versions refuse they refuse with the negative of an error, if not with the
error itself, and so there is a text for each negative number that they return
(`ppStrerror_ppParseHdr`).
-/

namespace ProxyProtocol

open Inet AsioServer

/-! ## Faults of single stages -/

/-- A port that is too long for its array. -/
def Overlong (field : List UInt8) : Prop :=
  6 < field.length ∨ (field.length = 6 ∧ strtoul field = none)

section Stages

variable {text field rest : List UInt8} {info : PpInfo} {f : Fault}

lemma parsePort_faulted_iff :
    parsePort field = .faulted f ↔ strtoul field = none ∧ f = .outOfBounds := by
  unfold parsePort
  cases strtoul field with
  | none => exact ⟨fun h => ⟨rfl, (Outcome.faulted.inj h).symm⟩, fun h => by rw [h.2]; rfl⟩
  | some port =>
    refine iff_of_false (fun h => ?_) fun h => nomatch h.1
    have h' : (if port = 0 ∨ 65535 < port then _ else _) = Outcome.faulted f := h
    split_ifs at h'

/-- A port is read, unless it is too long. -/
lemma portStr_bind_faulted_iff :
    portStr field >>= parsePort = .faulted f ↔ Overlong field ∧ f = .outOfBounds := by
  unfold portStr Overlong
  rcases lt_trichotomy field.length 6 with hshort | hfull | hlong
  · have hzero : 0 ∈ field ++ List.replicate (6 - field.length) 0 :=
      List.mem_append_right _ (List.mem_replicate.2 ⟨by omega, rfl⟩)
    rw [if_pos hshort.le, Outcome.returned_bind, parsePort_faulted_iff]
    refine iff_of_false (fun h => strtoul_of_zero_mem hzero h.1) fun h => ?_
    rcases h.1 with hlong | ⟨hfull, -⟩ <;> omega
  · rw [if_pos hfull.le, Outcome.returned_bind, parsePort_faulted_iff, hfull, Nat.sub_self,
      List.replicate_zero, List.append_nil]
    simp
  · rw [if_neg (not_le.2 hlong)]
    exact ⟨fun h => ⟨.inl hlong, (Outcome.faulted.inj h).symm⟩, fun h => by rw [h.2]; rfl⟩

lemma afterSpace_faulted {next : List UInt8 → Outcome Fault LineResult} (hzero : 0 ∈ text)
    (h : afterSpace text info next = .faulted f) :
    ∃ rest, text = 32 :: rest ∧ 0 ∈ rest ∧ next rest = .faulted f := by
  cases text with
  | nil => cases hzero
  | cons ch rest =>
    by_cases hch : ch = 32
    · subst hch
      exact ⟨rest, rfl, (List.mem_cons.1 hzero).resolve_left (by decide), h⟩
    · cases (if_pos hch).symm.trans h

lemma mem_behind {stop : UInt8} (hstop : stop ≠ 0) (hfield : 0 ∉ field)
    (h : 0 ∈ field ++ stop :: rest) : 0 ∈ rest :=
  (List.mem_cons.1 ((List.mem_append.1 h).resolve_left hfield)).resolve_left hstop.symm

lemma takeAddr_faulted {pton : List UInt8 → Option (List UInt8)} {e : Err}
    {store : PpInfo → AddrText → PpInfo} {next : PpInfo → List UInt8 → Outcome Fault LineResult}
    (hlength : text.length ≤ 108) (hzero : 0 ∈ text)
    (h : takeAddr pton e store text info next = .faulted f) :
    ∃ field rest, text = field ++ 32 :: rest ∧ 32 ∉ field ∧ 0 ∉ field ∧ 0 ∈ rest ∧
      (pton field).isSome ∧ next (store info (.ofText field)) (32 :: rest) = .faulted f := by
  obtain ⟨found, hfound⟩ : ∃ found, strchr 32 text = some found := exists_strstr hzero [32]
  cases found with
  | none =>
    rw [takeAddr_missing hfound] at h
    cases h
  | some n =>
    obtain ⟨rest, htext, hn, hspace, hnone⟩ := exists_of_strchr hfound
    generalize text.take n = field at htext hspace hnone
    subst htext
    rw [List.length_append, List.length_cons] at hlength
    rw [takeAddr_append hspace hnone (by omega)] at h
    split_ifs at h with hpton
    exact ⟨field, rest, rfl, hspace, hnone, mem_behind (by decide) hnone hzero,
      Option.isSome_iff_ne_none.2 hpton, h⟩

lemma takePort_faulted {stop : UInt8} {e : Err} {store : PpInfo → UInt16 → PpInfo}
    {next : PpInfo → List UInt8 → Outcome Fault LineResult} (hstop : stop ≠ 0)
    (hzero : 0 ∈ text) (h : takePort stop e store text info next = .faulted f) :
    ∃ field rest, text = field ++ stop :: rest ∧ stop ∉ field ∧ 0 ∉ field ∧ 0 ∈ rest ∧
      ((Overlong field ∧ f = .outOfBounds) ∨
        ∃ port, PortText field port ∧ next (store info port) (stop :: rest) = .faulted f) := by
  obtain ⟨found, hfound⟩ : ∃ found, strchr stop text = some found := exists_strstr hzero [stop]
  cases found with
  | none =>
    rw [takePort, hfound] at h
    cases h
  | some n =>
    obtain ⟨rest, htext, -, hfield, hnone⟩ := exists_of_strchr hfound
    generalize text.take n = field at htext hfield hnone
    subst htext
    refine ⟨field, rest, rfl, hfield, hnone, mem_behind hstop hnone hzero, ?_⟩
    rw [takePort_append hstop hfield hnone] at h
    cases hport : portStr field >>= parsePort with
    | faulted f' =>
      rw [hport] at h
      obtain rfl := Outcome.faulted.inj h
      exact .inl (portStr_bind_faulted_iff.1 hport)
    | running =>
      rw [hport] at h
      cases h
    | returned port =>
      rw [hport] at h
      cases port with
      | none => cases h
      | some port => exact .inr ⟨port, hport, h⟩

lemma takeCrlf_not_faulted {hdrLen : ℤ} (hzero : 0 ∈ rest) :
    takeCrlf hdrLen info (13 :: rest) ≠ .faulted f := by
  intro h
  cases rest with
  | nil => cases hzero
  | cons ch rest =>
    have h' : (if (13 : UInt8) ≠ 13 ∨ ch ≠ 10 then _ else _) = Outcome.faulted f := h
    split_ifs at h'

end Stages

/-! ## Faults of the first version -/

/-- The parser comes to a port that is too long. -/
inductive Overruns (block : List UInt8) : Prop
  | srcPort {hdrLen : ℤ} {net : Net} {src dst field more : List UInt8} (hnet : net.Known)
      (hend : EndsAt block hdrLen) (hsrc : (net.pton src).isSome) (hdst : (net.pton dst).isSome)
      (hfield : 32 ∉ field ∧ 0 ∉ field ∧ Overlong field)
      (hblock : block = net.front ++ (src ++ 32 :: (dst ++ 32 :: (field ++ 32 :: more))))
  | dstPort {hdrLen : ℤ} {net : Net} {src dst srcField field more : List UInt8}
      {srcPort : UInt16} (hnet : net.Known) (hend : EndsAt block hdrLen)
      (hsrc : (net.pton src).isSome) (hdst : (net.pton dst).isSome)
      (hsrcField : 32 ∉ srcField ∧ 0 ∉ srcField ∧ PortText srcField srcPort)
      (hfield : 13 ∉ field ∧ 0 ∉ field ∧ Overlong field)
      (hblock : block = net.front ++
        (src ++ 32 :: (dst ++ 32 :: (srcField ++ 32 :: (field ++ 13 :: more)))))

section Whole

variable {block text : List UInt8} {info : PpInfo} {hdrLen : ℤ} {net : Net} {f : Fault}

lemma overruns_of_takeTcp (hnet : net.Known) (hlength : block.length ≤ 108)
    (hend : EndsAt block hdrLen) (hblock : block = ascii "PROXY " ++ net.token ++ text)
    (hzero : 0 ∈ text)
    (h : takeTcp net.pton net.srcErr net.dstErr hdrLen text (net.start info) = .faulted f) :
    Overruns block ∧ f = .outOfBounds := by
  obtain ⟨text₁, rfl, hzero₁, h₁⟩ := afterSpace_faulted hzero h
  have hblock₁ : block = net.front ++ text₁ := by
    rw [hblock, Net.front, List.append_assoc (_ ++ _)]
    rfl
  have hlength₁ : text₁.length ≤ 108 := by
    rw [hblock₁, List.length_append] at hlength
    omega
  obtain ⟨src, rest₁, rfl, -, -, hzero₂, hsrc, h₂⟩ := takeAddr_faulted hlength₁ hzero₁ h₁
  rw [List.length_append, List.length_cons] at hlength₁
  rw [afterSpace_cons] at h₂
  obtain ⟨dst, rest₂, rfl, -, -, hzero₃, hdst, h₃⟩ :=
    takeAddr_faulted (show rest₁.length ≤ 108 by omega) hzero₂ h₂
  rw [afterSpace_cons] at h₃
  obtain ⟨srcField, rest₃, rfl, hstop, hnone, hzero₄, hlong | ⟨srcPort, hsrcPort, h₄⟩⟩ :=
    takePort_faulted (by decide) hzero₃ h₃
  · exact ⟨.srcPort hnet hend hsrc hdst ⟨hstop, hnone, hlong.1⟩ hblock₁, hlong.2⟩
  rw [afterSpace_cons] at h₄
  obtain ⟨field, rest₄, rfl, hstop', hnone', hzero₅, hlong | ⟨dstPort, -, h₅⟩⟩ :=
    takePort_faulted (by decide) hzero₄ h₄
  · exact ⟨.dstPort hnet hend hsrc hdst ⟨hstop, hnone, hsrcPort⟩ ⟨hstop', hnone', hlong.1⟩
      hblock₁, hlong.2⟩
  · exact absurd h₅ (takeCrlf_not_faulted hzero₅)

lemma overruns_of_takeFamily (hlength : block.length ≤ 108) (hend : EndsAt block hdrLen)
    (hblock : block = ascii "PROXY " ++ text) (hzero : 0 ∈ text)
    (h : takeFamily hdrLen text info = .faulted f) : Overruns block ∧ f = .outOfBounds := by
  obtain ⟨found, hfound⟩ : ∃ found, strchr 32 text = some found := exists_strstr hzero [32]
  cases found with
  | none =>
    rw [takeFamily_missing hfound] at h
    split_ifs at h
  | some n =>
    rw [takeFamily_found hfound] at h
    split_ifs at h with h4 h6
    · obtain ⟨rest, rfl⟩ := h4
      have hrest : 0 ∈ rest := (List.mem_append.1 hzero).resolve_left (by decide)
      refine overruns_of_takeTcp (.inl rfl) hlength hend ?_ hrest h
      rw [hblock, List.append_assoc]
    · obtain ⟨rest, rfl⟩ := h6
      have hrest : 0 ∈ rest := (List.mem_append.1 hzero).resolve_left (by decide)
      refine overruns_of_takeTcp (.inr rfl) hlength hend ?_ hrest h
      rw [hblock, List.append_assoc]

/-- The parser leaves an array for these blocks, and no others that have a zero in them. -/
lemma parseBlock_faulted_iff (hlength : block.length ≤ 108) (hzero : 0 ∈ block) :
    parseBlock block info = .faulted f ↔ Overruns block ∧ f = .outOfBounds := by
  constructor
  · intro h
    obtain ⟨found, hfound⟩ : ∃ found, strstr crlf block = some found := exists_strstr hzero crlf
    rw [parseBlock, hfound] at h
    cases found with
    | none => cases h
    | some i =>
      have h' : (if ¬ pp1Sig <+: block then _ else _) = Outcome.faulted f := h
      split_ifs at h' with hsig
      obtain ⟨rest, rfl⟩ := hsig
      have hrest : 0 ∈ rest := (List.mem_append.1 hzero).resolve_left (by decide)
      obtain ⟨text, rfl, htext, hfamily⟩ := afterSpace_faulted hrest h'
      exact overruns_of_takeFamily hlength ⟨i, hfound, rfl⟩ rfl htext hfamily
  · rintro ⟨hover, rfl⟩
    cases hover with
    | srcPort hnet hend hsrc hdst hfield hblock =>
      rw [hblock, List.length_append, List.length_append, List.length_cons, List.length_append]
        at hlength
      rw [parseBlock_front hnet hend hblock, takeTcp_dst hnet hsrc hdst (by omega) (by omega),
        takePort_append (by decide) hfield.1 hfield.2.1,
        portStr_bind_faulted_iff.2 ⟨hfield.2.2, rfl⟩]
      rfl
    | dstPort hnet hend hsrc hdst hsrcField hfield hblock =>
      rw [hblock, List.length_append, List.length_append, List.length_cons, List.length_append]
        at hlength
      rw [parseBlock_front hnet hend hblock, takeTcp_dst hnet hsrc hdst (by omega) (by omega),
        takePort_portText (by decide) hsrcField.1 hsrcField.2.1 hsrcField.2.2, afterSpace_cons,
        takePort_append (by decide) hfield.1 hfield.2.1,
        portStr_bind_faulted_iff.2 ⟨hfield.2.2, rfl⟩]
      rfl

/-- Given fewer than 108 bytes, or a zero among them, the first version leaves an array exactly if
it comes to a port that is too long. -/
theorem pp1ParseHdr_faulted_iff {buffer : List UInt8} {bufferLength : ℕ}
    (hlength : bufferLength ≤ buffer.length)
    (hzero : bufferLength < 108 ∨ 0 ∈ buffer.take 108) :
    pp1ParseHdr buffer bufferLength info = .faulted f ↔
      Overruns (blockOf (buffer.take (min bufferLength 108))) ∧ f = .outOfBounds := by
  have hblock : (blockOf (buffer.take (min bufferLength 108))).length = 108 :=
    length_blockOf ((List.length_take_le _ _).trans (min_le_right _ _))
  have hmem : 0 ∈ blockOf (buffer.take (min bufferLength 108)) := by
    rw [blockOf, List.mem_append, List.mem_replicate, List.length_take]
    rcases Nat.lt_or_ge bufferLength 108 with hshort | hlong
    · exact .inr ⟨by omega, rfl⟩
    · rw [min_eq_right hlong]
      exact .inl (hzero.resolve_left (not_lt.2 hlong))
  rw [pp1ParseHdr, readBytes_of_le (by omega), List.drop_zero]
  exact parseBlock_faulted_iff hblock.le hmem

/-- A source port of seven digits. -/
theorem pp1ParseHdr_faulted_iff_seven :
    Overruns (blockOf ((ascii "PROXY TCP4 1.2.3.4 5.6.7.8 1234567 1\r\n").take 38)) := by
  have hlength : 38 ≤ (ascii "PROXY TCP4 1.2.3.4 5.6.7.8 1234567 1\r\n").length := by decide
  have hfault : pp1ParseHdr (ascii "PROXY TCP4 1.2.3.4 5.6.7.8 1234567 1\r\n") 38 .zero =
      .faulted .outOfBounds := by
    decide +kernel
  exact ((pp1ParseHdr_faulted_iff hlength (.inl (by norm_num))).1 hfault).1

end Whole

/-! ## The parser comes back -/

section Comes

variable {text block : List UInt8} {info : PpInfo} {hdrLen : ℤ}

lemma orFault_ne_running {α : Type} (x : Option α) : orFault x ≠ .running := by
  cases x <;> exact fun h => nomatch h

lemma afterSpace_ne_running {next : List UInt8 → Outcome Fault LineResult}
    (hnext : ∀ text, next text ≠ .running) : afterSpace text info next ≠ .running := by
  cases text with
  | nil => exact fun h => nomatch h
  | cons ch rest =>
    show (if ch ≠ 32 then _ else _) ≠ Outcome.running
    split_ifs
    · exact fun h => nomatch h
    · exact hnext rest

lemma takeAddr_ne_running {pton : List UInt8 → Option (List UInt8)} {e : Err}
    {store : PpInfo → AddrText → PpInfo} {next : PpInfo → List UInt8 → Outcome Fault LineResult}
    (hnext : ∀ info text, next info text ≠ .running) :
    takeAddr pton e store text info next ≠ .running := by
  refine Outcome.bind_ne_running (orFault_ne_running _) fun addressEnd => ?_
  cases addressEnd with
  | none => exact fun h => nomatch h
  | some n =>
    refine Outcome.bind_ne_running ?_ fun address => ?_
    · unfold AddrText.text
      split_ifs <;> exact fun h => nomatch h
    · split_ifs
      · exact fun h => nomatch h
      · exact hnext _ _

lemma takePort_ne_running {stop : UInt8} {e : Err} {store : PpInfo → UInt16 → PpInfo}
    {next : PpInfo → List UInt8 → Outcome Fault LineResult}
    (hnext : ∀ info text, next info text ≠ .running) :
    takePort stop e store text info next ≠ .running := by
  refine Outcome.bind_ne_running (orFault_ne_running _) fun portEnd => ?_
  cases portEnd with
  | none => exact fun h => nomatch h
  | some n =>
    refine Outcome.bind_ne_running ?_ fun str => Outcome.bind_ne_running ?_ fun port => ?_
    · unfold portStr
      split_ifs <;> exact fun h => nomatch h
    · refine Outcome.bind_ne_running (orFault_ne_running _) fun port => ?_
      split_ifs <;> exact fun h => nomatch h
    · cases port with
      | none => exact fun h => nomatch h
      | some port => exact hnext _ _

lemma takeCrlf_ne_running : takeCrlf hdrLen info text ≠ .running := by
  unfold takeCrlf
  split
  · exact fun h => nomatch h
  · split_ifs <;> exact fun h => nomatch h
  · split_ifs <;> exact fun h => nomatch h

lemma takeTcp_ne_running {pton : List UInt8 → Option (List UInt8)} {srcErr dstErr : Err} :
    takeTcp pton srcErr dstErr hdrLen text info ≠ .running :=
  afterSpace_ne_running fun _ => takeAddr_ne_running fun _ _ =>
    afterSpace_ne_running fun _ => takeAddr_ne_running fun _ _ =>
      afterSpace_ne_running fun _ => takePort_ne_running fun _ _ =>
        afterSpace_ne_running fun _ => takePort_ne_running fun _ _ => takeCrlf_ne_running

lemma takeFamily_ne_running : takeFamily hdrLen text info ≠ .running := by
  refine Outcome.bind_ne_running (orFault_ne_running _) fun inetFamily => ?_
  cases inetFamily with
  | none =>
    dsimp only
    split_ifs <;> exact fun h => nomatch h
  | some n =>
    dsimp only
    split_ifs
    · exact takeTcp_ne_running
    · exact takeTcp_ne_running
    · exact fun h => nomatch h
    · exact fun h => nomatch h

lemma parseBlock_ne_running : parseBlock block info ≠ .running := by
  refine Outcome.bind_ne_running (orFault_ne_running _) fun blockEnd => ?_
  cases blockEnd with
  | none => exact fun h => nomatch h
  | some i =>
    dsimp only
    split_ifs
    · exact afterSpace_ne_running fun _ => takeFamily_ne_running
    · exact fun h => nomatch h

end Comes

/-! ## Errors -/

/-- A negative number is the negative of an error. -/
def Told (rc : ℤ) : Prop := rc < 0 → ∃ e : Err, rc = -e.code

lemma told_of_nonneg {rc : ℤ} (h : 0 ≤ rc) : Told rc := fun hneg => absurd hneg (not_lt.2 h)

lemma told_neg_code (e : Err) : Told (-e.code) := fun _ => ⟨e, rfl⟩

section Line

variable {text block : List UInt8} {info : PpInfo} {r : LineResult} {hdrLen : ℤ}

lemma afterSpace_told {next : List UInt8 → Outcome Fault LineResult}
    (hnext : ∀ text, next text = .returned r → Told r.1)
    (h : afterSpace text info next = .returned r) : Told r.1 := by
  rcases afterSpace_returned h with rfl | ⟨rest, -, hrest⟩
  · exact told_neg_code _
  · exact hnext rest hrest

lemma takeAddr_told {pton : List UInt8 → Option (List UInt8)} {e : Err}
    {store : PpInfo → AddrText → PpInfo} {next : PpInfo → List UInt8 → Outcome Fault LineResult}
    (hnext : ∀ info text, next info text = .returned r → Told r.1)
    (h : takeAddr pton e store text info next = .returned r) : Told r.1 := by
  obtain ⟨found, -, h⟩ := orFault_bind_eq_returned.1 h
  cases found with
  | none =>
    obtain rfl := Outcome.returned.inj h
    exact told_of_nonneg e.code_nonneg
  | some n =>
    obtain ⟨address, -, h⟩ := Outcome.bind_eq_returned.1 h
    split_ifs at h
    · obtain rfl := Outcome.returned.inj h
      exact told_of_nonneg e.code_nonneg
    · exact hnext _ _ h

lemma takePort_told {stop : UInt8} {e : Err} {store : PpInfo → UInt16 → PpInfo}
    {next : PpInfo → List UInt8 → Outcome Fault LineResult} (hstop : stop ≠ 0)
    (hnext : ∀ info text, next info text = .returned r → Told r.1)
    (h : takePort stop e store text info next = .returned r) : Told r.1 := by
  rcases takePort_returned hstop h with rfl | ⟨_, _, _, -, -, -, -, hrest⟩
  · exact told_neg_code _
  · exact hnext _ _ hrest

lemma takeCrlf_told (hpos : 0 ≤ hdrLen) (h : takeCrlf hdrLen info text = .returned r) :
    Told r.1 := by
  rcases takeCrlf_returned h with rfl | ⟨_, -, rfl⟩
  · exact told_neg_code _
  · exact told_of_nonneg hpos

lemma takeTcp_told {pton : List UInt8 → Option (List UInt8)} {srcErr dstErr : Err}
    (hpos : 0 ≤ hdrLen) (h : takeTcp pton srcErr dstErr hdrLen text info = .returned r) :
    Told r.1 := by
  refine afterSpace_told (fun text h => ?_) h
  refine takeAddr_told (fun info text h => ?_) h
  refine afterSpace_told (fun text h => ?_) h
  refine takeAddr_told (fun info text h => ?_) h
  refine afterSpace_told (fun text h => ?_) h
  refine takePort_told (by decide) (fun info text h => ?_) h
  refine afterSpace_told (fun text h => ?_) h
  exact takePort_told (by decide) (fun info text h => takeCrlf_told hpos h) h

lemma takeFamily_told (hpos : 0 ≤ hdrLen) (h : takeFamily hdrLen text info = .returned r) :
    Told r.1 := by
  obtain ⟨found, -, h⟩ := orFault_bind_eq_returned.1 h
  cases found with
  | none =>
    have h' : (if hdrLen = 15 ∨ unknown <+: text then _ else _) = Outcome.returned r := h
    split_ifs at h'
    · obtain rfl := Outcome.returned.inj h'
      exact told_of_nonneg hpos
    · obtain rfl := Outcome.returned.inj h'
      exact told_neg_code _
  | some n =>
    have h' : (if tcp4 <+: text then _ else _) = Outcome.returned r := h
    split_ifs at h'
    · exact takeTcp_told hpos h'
    · exact takeTcp_told hpos h'
    · obtain rfl := Outcome.returned.inj h'
      exact told_of_nonneg hpos
    · obtain rfl := Outcome.returned.inj h'
      exact told_neg_code _

lemma parseBlock_told (h : parseBlock block info = .returned r) : Told r.1 := by
  obtain ⟨found, -, h⟩ := orFault_bind_eq_returned.1 h
  cases found with
  | none =>
    obtain rfl := Outcome.returned.inj h
    exact told_neg_code _
  | some i =>
    have h' : (if ¬ pp1Sig <+: block then _ else _) = Outcome.returned r := h
    split_ifs at h'
    · exact afterSpace_told (fun text h => takeFamily_told (by omega) h) h'
    · obtain rfl := Outcome.returned.inj h'
      exact told_neg_code _

end Line

section Both

variable {host : ByteOrder} {budget hdrLen n : ℕ} {buffer : List UInt8} {info : PpInfo}
  {parsed : Parsed}

lemma tlvTurn_told {s : Scan} (h : tlvTurn host budget hdrLen s = .returned (.done parsed)) :
    Told parsed.rc := by
  unfold tlvTurn at h
  split_ifs at h
  · obtain ⟨type, -, h⟩ := Outcome.bind_eq_returned.1 h
    obtain ⟨hi, -, h⟩ := Outcome.bind_eq_returned.1 h
    obtain ⟨lo, -, h⟩ := Outcome.bind_eq_returned.1 h
    split_ifs at h
    · obtain rfl := Outcome.Turn.done.inj (Outcome.returned.inj h)
      exact told_neg_code _
    · obtain ⟨taken, -, h⟩ := Outcome.bind_eq_returned.1 h
      have hmove := Outcome.returned.inj h
      cases taken with
      | error r =>
        obtain rfl := Outcome.Turn.done.inj hmove
        exact told_neg_code _
      | ok r => cases hmove
  · obtain rfl := Outcome.Turn.done.inj (Outcome.returned.inj h)
    exact told_of_nonneg (Int.natCast_nonneg _)

lemma pp2ParseHdr_told (h : pp2ParseHdr host budget buffer n info = .returned parsed) :
    Told parsed.rc := by
  obtain ⟨verCmd, -, h⟩ := Outcome.bind_eq_returned.1 h
  obtain ⟨fam, -, h⟩ := Outcome.bind_eq_returned.1 h
  obtain ⟨hi, -, h⟩ := Outcome.bind_eq_returned.1 h
  obtain ⟨lo, -, h⟩ := Outcome.bind_eq_returned.1 h
  cases hfront : checkFront info verCmd fam n (Tlv.field hi lo) with
  | error r =>
    rw [hfront] at h
    obtain rfl := Outcome.returned.inj h
    exact told_neg_code _
  | ok info' =>
    rw [hfront] at h
    obtain ⟨addresses, -, h⟩ := Outcome.bind_eq_returned.1 h
    cases addresses with
    | error r =>
      obtain rfl := Outcome.returned.inj h
      exact told_neg_code _
    | ok r =>
      obtain ⟨s, -, hdone⟩ := Outcome.exists_reaches_of_loop h
      exact tlvTurn_told hdone

/-- There is a text for every negative number that the parser returns. -/
theorem ppStrerror_ppParseHdr (h : ppParseHdr host budget buffer n = .returned parsed)
    (hneg : parsed.rc < 0) : ∃ text, ppStrerror parsed.rc = some text := by
  suffices htold : Told parsed.rc from
    Option.isSome_iff_exists.1 (ppStrerror_isSome_iff.2 (htold hneg))
  unfold ppParseHdr at h
  split_ifs at h
  · exact pp2ParseHdr_told h
  · obtain ⟨r, hr, h⟩ := Outcome.bind_eq_returned.1 h
    obtain ⟨bytes, -, hblock⟩ := Outcome.bind_eq_returned.1 hr
    obtain rfl := Outcome.returned.inj h
    exact parseBlock_told hblock
  · obtain rfl := Outcome.returned.inj h
    exact told_of_nonneg le_rfl

/-- A line without its end. -/
theorem ppStrerror_ppParseHdr_crlf : ∃ text, ppStrerror (-Err.pp1Crlf.code) = some text := by
  have hparse : ppParseHdr .little 20 (ascii "PROXY UNKNOWN") 13 =
      .returned ⟨-Err.pp1Crlf.code, .zero, ascii "PROXY UNKNOWN"⟩ := by
    decide +kernel
  exact ppStrerror_ppParseHdr hparse (by decide)

end Both

end ProxyProtocol
