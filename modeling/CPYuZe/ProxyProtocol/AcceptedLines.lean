import CPYuZe.ProxyProtocol.ParseLine

/-!
# What the parser of the first version accepts

A caller takes a positive result of `pp1_parse_hdr` for the length of a header.  `Accepted` is what
stands in the block when the result is positive: a line about an unknown connection, or something
of its length; a line with two addresses and two ports; or an address that is missing or wrong,
whose error is not negated.  `pp1ParseHdr_pos_iff` says that there is nothing else, and that all
of these are accepted.

The stages of the parser come with two lemmas each, for what they do to a text of the right form
(`takeAddr_append`) and for what a text was like that has got through (`takeAddr_returned`).
-/

namespace ProxyProtocol

open Inet AsioServer

/-! ## Single stages -/

section Stages

variable {text field rest : List UInt8} {info : PpInfo} {r : LineResult}

lemma orFault_bind_eq_returned {α β : Type} {x : Option α} {f : α → Outcome Fault β} {b : β} :
    orFault x >>= f = .returned b ↔ ∃ a, x = some a ∧ f a = .returned b := by
  cases x with
  | none => simp [orFault]
  | some a => simp [orFault]

lemma afterSpace_cons (next : List UInt8 → Outcome Fault LineResult) :
    afterSpace (32 :: rest) info next = next rest := rfl

lemma afterSpace_returned {next : List UInt8 → Outcome Fault LineResult}
    (h : afterSpace text info next = .returned r) :
    r = (-Err.pp1Space.code, info) ∨ ∃ rest, text = 32 :: rest ∧ next rest = .returned r := by
  cases text with
  | nil => cases h
  | cons ch rest =>
    by_cases hch : ch = 32
    · subst hch
      exact .inr ⟨rest, rfl, h⟩
    · exact .inl (Outcome.returned.inj ((if_pos hch).symm.trans h)).symm

section Addr

variable {pton : List UInt8 → Option (List UInt8)} {e : Err} {store : PpInfo → AddrText → PpInfo}
  {next : PpInfo → List UInt8 → Outcome Fault LineResult}

lemma takeAddr_append (hspace : 32 ∉ field) (hzero : 0 ∉ field) (hlength : field.length < 108)
    (rest : List UInt8) :
    takeAddr pton e store (field ++ 32 :: rest) info next =
      if pton field = none then .returned (e.code, store info (.ofText field))
      else next (store info (.ofText field)) (32 :: rest) := by
  rw [takeAddr, strchr_append (by decide) hzero hspace]
  show (AddrText.ofText ((field ++ 32 :: rest).take field.length)).text >>= _ = _
  rw [List.take_left, AddrText.text_ofText hlength hzero]
  show (if pton field = none then _ else next _ ((field ++ 32 :: rest).drop field.length)) = _
  rw [List.drop_left]

lemma takeAddr_missing (h : strchr 32 text = some none) :
    takeAddr pton e store text info next = .returned (e.code, info) := by
  rw [takeAddr, h]
  rfl

/-- An address is missing, or one stands here. -/
lemma takeAddr_returned (hlength : text.length ≤ 108)
    (h : takeAddr pton e store text info next = .returned r) :
    (strchr 32 text = some none ∧ r = (e.code, info)) ∨
      ∃ field rest, text = field ++ 32 :: rest ∧ 32 ∉ field ∧ 0 ∉ field ∧
        ((pton field = none ∧ r = (e.code, store info (.ofText field))) ∨
          ((pton field).isSome ∧
            next (store info (.ofText field)) (32 :: rest) = .returned r)) := by
  obtain ⟨found, hfound, hnext⟩ := orFault_bind_eq_returned.1 h
  cases found with
  | none => exact .inl ⟨hfound, (Outcome.returned.inj hnext).symm⟩
  | some n =>
    obtain ⟨rest, htext, hn, hspace, hzero⟩ := exists_of_strchr hfound
    generalize text.take n = field at htext hspace hzero
    subst htext
    rw [List.length_append, List.length_cons] at hlength
    rw [takeAddr_append hspace hzero (by omega)] at h
    refine .inr ⟨field, rest, rfl, hspace, hzero, ?_⟩
    split_ifs at h with hpton
    · exact .inl ⟨hpton, (Outcome.returned.inj h).symm⟩
    · exact .inr ⟨Option.isSome_iff_ne_none.2 hpton, h⟩

end Addr

section Port

variable {stop : UInt8} {e : Err} {store : PpInfo → UInt16 → PpInfo}
  {next : PpInfo → List UInt8 → Outcome Fault LineResult}

/-- The text of a port that the parser takes. -/
def PortText (field : List UInt8) (port : UInt16) : Prop :=
  portStr field >>= parsePort = .returned (some port)

lemma takePort_append (hstop : stop ≠ 0) (hfield : stop ∉ field) (hzero : 0 ∉ field)
    (rest : List UInt8) :
    takePort stop e store (field ++ stop :: rest) info next =
      portStr field >>= parsePort >>= fun port =>
        match port with
        | none => .returned (-e.code, info)
        | some port => next (store info port) (stop :: rest) := by
  rw [takePort, strchr_append hstop hzero hfield]
  show portStr ((field ++ stop :: rest).take field.length) >>= _ = _
  rw [List.take_left, List.drop_left]
  exact Outcome.bind_bind.symm

lemma takePort_portText (hstop : stop ≠ 0) (hfield : stop ∉ field) (hzero : 0 ∉ field)
    {port : UInt16} (hport : PortText field port) (rest : List UInt8) :
    takePort stop e store (field ++ stop :: rest) info next =
      next (store info port) (stop :: rest) := by
  rw [takePort_append hstop hfield hzero, hport]
  rfl

/-- There is an error, or a port stands here. -/
lemma takePort_returned (hstop : stop ≠ 0)
    (h : takePort stop e store text info next = .returned r) :
    r = (-e.code, info) ∨
      ∃ field rest port, text = field ++ stop :: rest ∧ stop ∉ field ∧ 0 ∉ field ∧
        PortText field port ∧ next (store info port) (stop :: rest) = .returned r := by
  obtain ⟨found, hfound, hnext⟩ := orFault_bind_eq_returned.1 h
  cases found with
  | none => exact .inl (Outcome.returned.inj hnext).symm
  | some n =>
    obtain ⟨rest, htext, -, hfield, hzero⟩ := exists_of_strchr hfound
    generalize text.take n = field at htext hfield hzero
    subst htext
    rw [takePort_append hstop hfield hzero] at h
    obtain ⟨port, hport, hstored⟩ := Outcome.bind_eq_returned.1 h
    cases port with
    | none => exact .inl (Outcome.returned.inj hstored).symm
    | some port => exact .inr ⟨field, rest, port, rfl, hfield, hzero, hport, hstored⟩

end Port

lemma takeCrlf_returned {hdrLen : ℤ} (h : takeCrlf hdrLen info text = .returned r) :
    r = (-Err.pp1Crlf.code, info) ∨ ∃ rest, text = 13 :: 10 :: rest ∧ r = (hdrLen, info) := by
  cases text with
  | nil => cases h
  | cons ch text =>
    cases text with
    | nil =>
      have h' : (if ch ≠ 13 then _ else _) = Outcome.returned r := h
      split_ifs at h'
      exact .inl (Outcome.returned.inj h').symm
    | cons ch' rest =>
      have h' : (if ch ≠ 13 ∨ ch' ≠ 10 then _ else _) = Outcome.returned r := h
      split_ifs at h' with hch
      · exact .inl (Outcome.returned.inj h').symm
      · obtain ⟨hcr, hlf⟩ := not_or.1 hch
        rw [not_not] at hcr hlf
        subst hcr hlf
        exact .inr ⟨rest, rfl, (Outcome.returned.inj h').symm⟩

end Stages

/-! ## The families -/

/-- What the parser does for `TCP4` and for `TCP6`. -/
structure Net where
  token : List UInt8
  pton : List UInt8 → Option (List UInt8)
  family : UInt8
  srcErr : Err
  dstErr : Err

def net4 : Net := ⟨tcp4, inetPton4, addrFamilyInet, .pp1Ipv4SrcIp, .pp1Ipv4DstIp⟩

def net6 : Net := ⟨tcp6, inetPton6, addrFamilyInet6, .pp1Ipv6SrcIp, .pp1Ipv6DstIp⟩

namespace Net

variable {net : Net}

/-- One of the two. -/
def Known (net : Net) : Prop := net = net4 ∨ net = net6

/-- `pp_info` when the family is known. -/
def start (net : Net) (info : PpInfo) : PpInfo :=
  { info with addressFamily := net.family, transportProtocol := transportProtocolStream }

def withSrc (net : Net) (info : PpInfo) (src : List UInt8) : PpInfo :=
  { net.start info with srcAddr := .ofText src }

def withDst (net : Net) (info : PpInfo) (src dst : List UInt8) : PpInfo :=
  { net.withSrc info src with dstAddr := .ofText dst }

def withPorts (net : Net) (info : PpInfo) (src dst : List UInt8) (srcPort dstPort : UInt16) :
    PpInfo :=
  { net.withDst info src dst with srcPort := srcPort, dstPort := dstPort }

/-- An address that is taken has neither a space nor a zero in it. -/
lemma Known.notMem (h : net.Known) {field : List UInt8} (hfield : (net.pton field).isSome)
    {ch : UInt8} (hch : ¬ Letter ch) : ch ∉ field := by
  obtain ⟨addr, haddr⟩ := Option.isSome_iff_exists.1 hfield
  intro hmem
  rcases h with rfl | rfl
  · exact hch (letter_of_inetPton4 haddr ch hmem)
  · exact hch (letter_of_inetPton6 haddr ch hmem)

/-- The front of a line, up to the source address. -/
def front (net : Net) : List UInt8 := ascii "PROXY " ++ net.token ++ [32]

end Net

lemma not_letter : ¬ Letter 32 ∧ ¬ Letter 0 ∧ ¬ Letter 13 := by
  refine ⟨?_, ?_, ?_⟩ <;> rintro (h | h | h) <;> revert h <;> decide

/-! ## Whole lines -/

/-- `pp_info` for an unknown connection. -/
def unspecified (info : PpInfo) : PpInfo :=
  { info with addressFamily := addrFamilyUnspec, transportProtocol := transportProtocolUnspec }

/-- There is a line feed with a carriage return in front of it in the block, and the number behind
it is taken for the length of the line. -/
def EndsAt (block : List UInt8) (hdrLen : ℤ) : Prop :=
  ∃ i : ℕ, strstr crlf block = some (some i) ∧ hdrLen = i + 2

/-- What stands in a block for which the parser returns a positive number, and what it leaves in
`pp_info` then. -/
inductive Accepted (block : List UInt8) (info : PpInfo) : ℤ → PpInfo → Prop
  /-- An unknown connection; any line of fifteen bytes is one if there is no other space. -/
  | unknown {hdrLen : ℤ} {text : List UInt8} (hend : EndsAt block hdrLen)
      (hblock : block = ascii "PROXY " ++ text)
      (htext : (unknown <+: text ∧ ∃ found, strchr 32 text = some found) ∨
        (hdrLen = 15 ∧ strchr 32 text = some none)) :
      Accepted block info hdrLen (unspecified info)
  /-- Two addresses and two ports. -/
  | tcp {hdrLen : ℤ} {net : Net} {src dst srcField dstField more : List UInt8}
      {srcPort dstPort : UInt16} (hnet : net.Known) (hend : EndsAt block hdrLen)
      (hsrc : (net.pton src).isSome) (hdst : (net.pton dst).isSome)
      (hsrcField : 32 ∉ srcField ∧ 0 ∉ srcField ∧ PortText srcField srcPort)
      (hdstField : 13 ∉ dstField ∧ 0 ∉ dstField ∧ PortText dstField dstPort)
      (hblock : block = net.front ++
        (src ++ 32 :: (dst ++ 32 :: (srcField ++ 32 :: (dstField ++ 13 :: 10 :: more))))) :
      Accepted block info hdrLen (net.withPorts info src dst srcPort dstPort)
  /-- A source address with no space behind it. -/
  | srcMissing {hdrLen : ℤ} {net : Net} {text : List UInt8} (hnet : net.Known)
      (hend : EndsAt block hdrLen) (hblock : block = net.front ++ text)
      (htext : strchr 32 text = some none) :
      Accepted block info net.srcErr.code (net.start info)
  /-- A source address that is refused. -/
  | srcRefused {hdrLen : ℤ} {net : Net} {src text : List UInt8} (hnet : net.Known)
      (hend : EndsAt block hdrLen) (hsrc : net.pton src = none ∧ 32 ∉ src ∧ 0 ∉ src)
      (hblock : block = net.front ++ (src ++ 32 :: text)) :
      Accepted block info net.srcErr.code (net.withSrc info src)
  /-- A destination address with no space behind it. -/
  | dstMissing {hdrLen : ℤ} {net : Net} {src text : List UInt8} (hnet : net.Known)
      (hend : EndsAt block hdrLen) (hsrc : (net.pton src).isSome)
      (hblock : block = net.front ++ (src ++ 32 :: text)) (htext : strchr 32 text = some none) :
      Accepted block info net.dstErr.code (net.withSrc info src)
  /-- A destination address that is refused. -/
  | dstRefused {hdrLen : ℤ} {net : Net} {src dst text : List UInt8} (hnet : net.Known)
      (hend : EndsAt block hdrLen) (hsrc : (net.pton src).isSome)
      (hdst : net.pton dst = none ∧ 32 ∉ dst ∧ 0 ∉ dst)
      (hblock : block = net.front ++ (src ++ 32 :: (dst ++ 32 :: text))) :
      Accepted block info net.dstErr.code (net.withDst info src dst)

section Whole

variable {block text : List UInt8} {info : PpInfo} {r : LineResult} {hdrLen : ℤ} {net : Net}

lemma Err.code_nonneg (e : Err) : 0 ≤ e.code := Int.natCast_nonneg _

/-- An error that is negated is not positive. -/
lemma not_pos_of_refused {e : Err} {info' : PpInfo} (h : r = (-e.code, info')) : ¬ 0 < r.1 := by
  subst h
  exact not_lt.2 (Int.neg_nonpos_of_nonneg e.code_nonneg)

lemma EndsAt.pos (h : EndsAt block hdrLen) : 0 < hdrLen := by
  obtain ⟨i, -, rfl⟩ := h
  omega

/-- What stands behind the name of the family. -/
lemma accepted_of_takeTcp (hnet : net.Known) (hlength : block.length ≤ 108)
    (hend : EndsAt block hdrLen) (hblock : block = ascii "PROXY " ++ net.token ++ text)
    (h : takeTcp net.pton net.srcErr net.dstErr hdrLen text (net.start info) = .returned r)
    (hpos : 0 < r.1) : Accepted block info r.1 r.2 := by
  rcases afterSpace_returned h with hspace | ⟨text₁, rfl, h₁⟩
  · exact absurd hpos (not_pos_of_refused hspace)
  have hblock₁ : block = net.front ++ text₁ := by
    rw [hblock, Net.front, List.append_assoc (_ ++ _)]
    rfl
  have hlength₁ : text₁.length ≤ 108 := by
    rw [hblock₁, List.length_append] at hlength
    omega
  rcases takeAddr_returned hlength₁ h₁ with ⟨hmissing, rfl⟩ | ⟨src, rest₁, rfl, hspace, hzero, hsrc⟩
  · exact .srcMissing hnet hend hblock₁ hmissing
  rcases hsrc with ⟨hrefused, rfl⟩ | ⟨hsrc, h₂⟩
  · exact .srcRefused hnet hend ⟨hrefused, hspace, hzero⟩ hblock₁
  rw [List.length_append, List.length_cons] at hlength₁
  rw [afterSpace_cons] at h₂
  have hlength₂ : rest₁.length ≤ 108 := by omega
  rcases takeAddr_returned hlength₂ h₂ with
    ⟨hmissing, rfl⟩ | ⟨dst, rest₂, rfl, hspace', hzero', hdst⟩
  · exact .dstMissing hnet hend hsrc hblock₁ hmissing
  rcases hdst with ⟨hrefused, rfl⟩ | ⟨hdst, h₃⟩
  · exact .dstRefused hnet hend hsrc ⟨hrefused, hspace', hzero'⟩ hblock₁
  rw [afterSpace_cons] at h₃
  rcases takePort_returned (by decide) h₃ with
    hport | ⟨srcField, rest₃, srcPort, rfl, hstop, hzero₃, hsrcPort, h₄⟩
  · exact absurd hpos (not_pos_of_refused hport)
  rw [afterSpace_cons] at h₄
  rcases takePort_returned (by decide) h₄ with
    hport | ⟨dstField, rest₄, dstPort, rfl, hstop', hzero₄, hdstPort, h₅⟩
  · exact absurd hpos (not_pos_of_refused hport)
  rcases takeCrlf_returned h₅ with hcrlf | ⟨more, hmore, rfl⟩
  · exact absurd hpos (not_pos_of_refused hcrlf)
  obtain rfl : rest₄ = 10 :: more := (List.cons.inj hmore).2
  exact .tcp hnet hend hsrc hdst ⟨hstop, hzero₃, hsrcPort⟩ ⟨hstop', hzero₄, hdstPort⟩ hblock₁

lemma takeFamily_found {n : ℕ} (h : strchr 32 text = some (some n)) :
    takeFamily hdrLen text info =
      if net4.token <+: text then
        takeTcp net4.pton net4.srcErr net4.dstErr hdrLen (text.drop 4) (net4.start info)
      else if net6.token <+: text then
        takeTcp net6.pton net6.srcErr net6.dstErr hdrLen (text.drop 4) (net6.start info)
      else if unknown <+: text then .returned (hdrLen, unspecified info)
      else .returned (-Err.pp1TransportFamily.code, info) := by
  rw [takeFamily, h]
  rfl

lemma takeFamily_missing (h : strchr 32 text = some none) :
    takeFamily hdrLen text info =
      if hdrLen = 15 ∨ unknown <+: text then .returned (hdrLen, unspecified info)
      else .returned (-Err.pp1TransportFamily.code, info) := by
  rw [takeFamily, h]
  rfl

lemma accepted_of_takeFamily (hlength : block.length ≤ 108) (hend : EndsAt block hdrLen)
    (hblock : block = ascii "PROXY " ++ text) (h : takeFamily hdrLen text info = .returned r)
    (hpos : 0 < r.1) : Accepted block info r.1 r.2 := by
  obtain ⟨found, hfound, -⟩ := orFault_bind_eq_returned.1 h
  cases found with
  | none =>
    rw [takeFamily_missing hfound] at h
    split_ifs at h with hshort
    · obtain rfl := Outcome.returned.inj h
      refine .unknown hend hblock ?_
      rcases hshort with hshort | hunknown
      · exact .inr ⟨hshort, hfound⟩
      · exact .inl ⟨hunknown, none, hfound⟩
    · exact absurd hpos (not_pos_of_refused (Outcome.returned.inj h).symm)
  | some n =>
    rw [takeFamily_found hfound] at h
    split_ifs at h with h4 h6 hunknown
    · obtain ⟨rest, rfl⟩ := h4
      refine accepted_of_takeTcp (.inl rfl) hlength hend ?_ h hpos
      rw [hblock, List.append_assoc]
      rfl
    · obtain ⟨rest, rfl⟩ := h6
      refine accepted_of_takeTcp (.inr rfl) hlength hend ?_ h hpos
      rw [hblock, List.append_assoc]
      rfl
    · obtain rfl := Outcome.returned.inj h
      exact .unknown hend hblock (.inl ⟨hunknown, some n, hfound⟩)
    · exact absurd hpos (not_pos_of_refused (Outcome.returned.inj h).symm)

/-! ## What is accepted is returned -/

/-- The line reaches the stage behind `PROXY` and a space. -/
lemma parseBlock_append (hend : EndsAt block hdrLen) (hblock : block = ascii "PROXY " ++ text) :
    parseBlock block info = takeFamily hdrLen text info := by
  obtain ⟨i, hi, rfl⟩ := hend
  have hsig : pp1Sig <+: block := ⟨32 :: text, hblock.symm⟩
  have hdrop : block.drop 5 = 32 :: text := by
    rw [hblock]
    rfl
  rw [parseBlock, hi]
  show (if ¬ pp1Sig <+: block then _ else _) = _
  rw [if_neg (not_not.2 hsig), hdrop]
  rfl

/-- It reaches the stage behind the name of a family. -/
lemma takeFamily_token (hnet : net.Known) (text : List UInt8) :
    takeFamily hdrLen (net.token ++ 32 :: text) info =
      takeTcp net.pton net.srcErr net.dstErr hdrLen (32 :: text) (net.start info) := by
  have hfound : strchr 32 (net.token ++ 32 :: text) = some (some net.token.length) := by
    apply strchr_append (by decide) <;> rcases hnet with rfl | rfl <;> decide
  rw [takeFamily_found hfound]
  rcases hnet with rfl | rfl
  · exact if_pos (List.prefix_append _ _)
  · have h4 : ¬ net4.token <+: net6.token ++ 32 :: text := by
      intro h
      have hpre := List.prefix_of_prefix_length_le h (List.prefix_append _ _) le_rfl
      exact absurd hpre (by decide)
    exact (if_neg h4).trans (if_pos (List.prefix_append _ _))

/-- It reaches the source address. -/
lemma parseBlock_front (hnet : net.Known) (hend : EndsAt block hdrLen)
    (hblock : block = net.front ++ text) :
    parseBlock block info =
      takeTcp net.pton net.srcErr net.dstErr hdrLen (32 :: text) (net.start info) := by
  rw [Net.front, List.append_assoc, List.append_assoc] at hblock
  rw [parseBlock_append hend hblock]
  exact takeFamily_token hnet text

/-- A source address that is taken. -/
lemma takeTcp_src (hnet : net.Known) {src : List UInt8} (hsrc : (net.pton src).isSome)
    (hlength : src.length < 108) (text : List UInt8) :
    takeTcp net.pton net.srcErr net.dstErr hdrLen (32 :: (src ++ 32 :: text)) (net.start info) =
      takeAddr net.pton net.dstErr (fun info addr => { info with dstAddr := addr }) text
        (net.withSrc info src) fun info text =>
          afterSpace text info fun text =>
            takePort 32 .pp1SrcPort (fun info port => { info with srcPort := port }) text info
              fun info text =>
                afterSpace text info fun text =>
                  takePort 13 .pp1DstPort (fun info port => { info with dstPort := port }) text
                    info fun info text => takeCrlf hdrLen info text := by
  obtain ⟨h32, h0, -⟩ := not_letter
  rw [takeTcp, afterSpace_cons,
    takeAddr_append (hnet.notMem hsrc h32) (hnet.notMem hsrc h0) hlength,
    if_neg (Option.isSome_iff_ne_none.1 hsrc), afterSpace_cons]
  rfl

/-- Both addresses are taken. -/
lemma takeTcp_dst (hnet : net.Known) {src dst : List UInt8} (hsrc : (net.pton src).isSome)
    (hdst : (net.pton dst).isSome) (hlength : src.length < 108) (hlength' : dst.length < 108)
    (text : List UInt8) :
    takeTcp net.pton net.srcErr net.dstErr hdrLen (32 :: (src ++ 32 :: (dst ++ 32 :: text)))
        (net.start info) =
      takePort 32 .pp1SrcPort (fun info port => { info with srcPort := port }) text
        (net.withDst info src dst) fun info text =>
          afterSpace text info fun text =>
            takePort 13 .pp1DstPort (fun info port => { info with dstPort := port }) text
              info fun info text => takeCrlf hdrLen info text := by
  obtain ⟨h32, h0, -⟩ := not_letter
  rw [takeTcp_src hnet hsrc hlength,
    takeAddr_append (hnet.notMem hdst h32) (hnet.notMem hdst h0) hlength',
    if_neg (Option.isSome_iff_ne_none.1 hdst), afterSpace_cons]
  rfl

/-- A whole line. -/
lemma takeTcp_line (hnet : net.Known) {src dst srcField dstField more : List UInt8}
    {srcPort dstPort : UInt16} (hsrc : (net.pton src).isSome) (hdst : (net.pton dst).isSome)
    (hlength : src.length < 108) (hlength' : dst.length < 108)
    (hsrcField : 32 ∉ srcField ∧ 0 ∉ srcField ∧ PortText srcField srcPort)
    (hdstField : 13 ∉ dstField ∧ 0 ∉ dstField ∧ PortText dstField dstPort) :
    takeTcp net.pton net.srcErr net.dstErr hdrLen
        (32 :: (src ++ 32 :: (dst ++ 32 :: (srcField ++ 32 :: (dstField ++ 13 :: 10 :: more)))))
        (net.start info) =
      .returned (hdrLen, net.withPorts info src dst srcPort dstPort) := by
  rw [takeTcp_dst hnet hsrc hdst hlength hlength',
    takePort_portText (by decide) hsrcField.1 hsrcField.2.1 hsrcField.2.2, afterSpace_cons,
    takePort_portText (by decide) hdstField.1 hdstField.2.1 hdstField.2.2]
  rfl

lemma unknown_not_tcp (h : unknown <+: text) : ¬ tcp4 <+: text ∧ ¬ tcp6 <+: text := by
  refine ⟨fun h' => ?_, fun h' => ?_⟩
  · exact absurd (List.prefix_of_prefix_length_le h' h (by decide)) (by decide)
  · exact absurd (List.prefix_of_prefix_length_le h' h (by decide)) (by decide)

lemma takeFamily_unknown (htext : (unknown <+: text ∧ ∃ found, strchr 32 text = some found) ∨
    (hdrLen = 15 ∧ strchr 32 text = some none)) :
    takeFamily hdrLen text info = .returned (hdrLen, unspecified info) := by
  rcases htext with ⟨hunknown, found, hfound⟩ | ⟨hshort, hfound⟩
  · cases found with
    | none => exact (takeFamily_missing hfound).trans (if_pos (.inr hunknown))
    | some n =>
      obtain ⟨h4, h6⟩ := unknown_not_tcp hunknown
      rw [takeFamily_found hfound]
      exact (if_neg h4).trans ((if_neg h6).trans (if_pos hunknown))
  · exact (takeFamily_missing hfound).trans (if_pos (.inl hshort))

lemma Net.Known.errors (hnet : net.Known) : 0 < net.srcErr.code ∧ 0 < net.dstErr.code := by
  rcases hnet with rfl | rfl <;> exact ⟨by decide, by decide⟩

/-- A positive number is returned exactly for these blocks. -/
lemma parseBlock_pos_iff (hlength : block.length ≤ 108) {rc : ℤ} {info' : PpInfo} :
    parseBlock block info = .returned (rc, info') ∧ 0 < rc ↔ Accepted block info rc info' := by
  constructor
  · rintro ⟨h, hpos⟩
    obtain ⟨found, hfound, hnext⟩ := orFault_bind_eq_returned.1 h
    cases found with
    | none => exact absurd hpos (not_pos_of_refused (Outcome.returned.inj hnext).symm)
    | some i =>
      have hnext' : (if ¬ pp1Sig <+: block then _ else _) = Outcome.returned (rc, info') := hnext
      split_ifs at hnext' with hsig
      · obtain ⟨rest, hrest⟩ := hsig
        rcases afterSpace_returned hnext' with hspace | ⟨text, htext, hfamily⟩
        · exact absurd hpos (not_pos_of_refused hspace)
        · have hblock : block = ascii "PROXY " ++ text := by
            have hdrop : block.drop 5 = rest := by
              rw [← hrest]
              rfl
            rw [← hrest, ← hdrop, htext]
            rfl
          exact accepted_of_takeFamily hlength ⟨i, hfound, rfl⟩ hblock hfamily hpos
      · exact absurd hpos (not_pos_of_refused (Outcome.returned.inj hnext').symm)
  · intro h
    cases h with
    | unknown hend hblock htext =>
      exact ⟨(parseBlock_append hend hblock).trans (takeFamily_unknown htext), hend.pos⟩
    | tcp hnet hend hsrc hdst hsrcField hdstField hblock =>
      rw [hblock, List.length_append, List.length_append, List.length_cons, List.length_append]
        at hlength
      refine ⟨(parseBlock_front hnet hend hblock).trans ?_, hend.pos⟩
      exact takeTcp_line hnet hsrc hdst (by omega) (by omega) hsrcField hdstField
    | srcMissing hnet hend hblock htext =>
      refine ⟨(parseBlock_front hnet hend hblock).trans ?_, hnet.errors.1⟩
      rw [takeTcp, afterSpace_cons, takeAddr_missing htext]
    | srcRefused hnet hend hsrc hblock =>
      rw [hblock, List.length_append, List.length_append, List.length_cons] at hlength
      refine ⟨(parseBlock_front hnet hend hblock).trans ?_, hnet.errors.1⟩
      rw [takeTcp, afterSpace_cons, takeAddr_append hsrc.2.1 hsrc.2.2 (by omega), if_pos hsrc.1]
      rfl
    | dstMissing hnet hend hsrc hblock htext =>
      rw [hblock, List.length_append, List.length_append, List.length_cons] at hlength
      refine ⟨(parseBlock_front hnet hend hblock).trans ?_, hnet.errors.2⟩
      rw [takeTcp_src hnet hsrc (by omega), takeAddr_missing htext]
    | dstRefused hnet hend hsrc hdst hblock =>
      rw [hblock, List.length_append, List.length_append, List.length_cons, List.length_append,
        List.length_cons] at hlength
      refine ⟨(parseBlock_front hnet hend hblock).trans ?_, hnet.errors.2⟩
      rw [takeTcp_src hnet hsrc (by omega), takeAddr_append hdst.2.1 hdst.2.2 (by omega),
        if_pos hdst.1]
      rfl

end Whole

lemma length_blockOf {bytes : List UInt8} (h : bytes.length ≤ 108) :
    (blockOf bytes).length = 108 := by
  rw [blockOf, List.length_append, List.length_replicate]
  omega

/-- The number that `pp1_parse_hdr` returns is positive exactly for these blocks. -/
theorem pp1ParseHdr_pos_iff {buffer : List UInt8} {bufferLength : ℕ}
    (hlength : bufferLength ≤ buffer.length) {info info' : PpInfo} {rc : ℤ} :
    pp1ParseHdr buffer bufferLength info = .returned (rc, info') ∧ 0 < rc ↔
      Accepted (blockOf (buffer.take (min bufferLength 108))) info rc info' := by
  have hblock : (blockOf (buffer.take (min bufferLength 108))).length ≤ 108 := by
    refine (length_blockOf ?_).le
    exact (List.length_take_le _ _).trans (min_le_right _ _)
  rw [pp1ParseHdr, readBytes_of_le (by omega), List.drop_zero]
  exact parseBlock_pos_iff hblock

/-- The number of an error is returned for a line whose source address is not an address. -/
theorem pp1ParseHdr_pos_iff_refused :
    Accepted (blockOf ((ascii "PROXY TCP4 x y 1 2\r\n").take 20)) .zero 22
      { PpInfo.zero with
        addressFamily := addrFamilyInet
        transportProtocol := transportProtocolStream
        srcAddr := .ofText (ascii "x") } := by
  have hlength : 20 ≤ (ascii "PROXY TCP4 x y 1 2\r\n").length := by decide
  exact (pp1ParseHdr_pos_iff hlength).1 ⟨by decide +kernel, by decide⟩

end ProxyProtocol
