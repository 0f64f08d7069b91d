import CPYuZe.ProxyProtocol.AcceptedLines
import CPYuZe.ProxyProtocol.Create

/-!
# Lines that have been created

A line that `pp_create_hdr` makes goes through the stages of the parser, whatever stands behind it
in the buffer.  The addresses are put into the line as they are, and so are the ports; it is the
parser that looks at them.  `lineVerdict` is what it says, and a line comes back as it was made if
both addresses are addresses and no port is zero (`ppParseHdr_pp1CreateHdr`).
-/

namespace ProxyProtocol

open Inet AsioServer

variable {net : Net} {src dst : List UInt8} {srcPort dstPort : UInt16}

/-! ## Ports -/

lemma portStr_decimal (port : UInt16) :
    ∃ n, portStr (decimal port.toNat) =
      .returned (decimal port.toNat ++ 0 :: List.replicate n 0) := by
  have hlength : (decimal port.toNat).length ≤ 5 :=
    (length_decimal_le_iff (by norm_num)).2 (port.toNat_lt.trans (by norm_num))
  obtain ⟨n, hn⟩ : ∃ n, 6 - (decimal port.toNat).length = n + 1 :=
    ⟨5 - (decimal port.toNat).length, by omega⟩
  refine ⟨n, ?_⟩
  rw [portStr, if_pos (by omega), hn, List.replicate_succ]

lemma parsePort_decimal (port : UInt16) :
    portStr (decimal port.toNat) >>= parsePort =
      .returned (if port = 0 then none else some port) := by
  obtain ⟨n, hn⟩ := portStr_decimal port
  have hlt := port.toNat_lt
  rw [hn, Outcome.returned_bind, parsePort,
    strtoul_decimal (hlt.trans (by norm_num)) (by decide)]
  show (if port.toNat = 0 ∨ 65535 < port.toNat then _ else _) = _
  by_cases hport : port = 0
  · subst hport
    rfl
  · have hne : ¬ (port.toNat = 0 ∨ 65535 < port.toNat) := by
      rintro (h | h)
      · exact hport (UInt16.toNat_inj.1 h)
      · omega
    rw [if_neg hne, if_neg hport, UInt16.ofNat_toNat]

lemma portText_decimal {port : UInt16} (h : port ≠ 0) : PortText (decimal port.toNat) port := by
  rw [PortText, parsePort_decimal, if_neg h]

lemma decimal_notMem {ch : UInt8} (h : ¬ (48 ≤ ch ∧ ch ≤ 57)) (n : ℕ) : ch ∉ decimal n :=
  fun hmem => h (decimal_digit hmem)

/-! ## The line in a block -/

/-- The line, with something behind it. -/
lemma pp1Line_append (net : Net) (src dst : List UInt8) (srcPort dstPort : UInt16)
    (more : List UInt8) :
    pp1Line net.token src dst srcPort dstPort ++ more =
      net.front ++ (src ++ 32 :: (dst ++ 32 :: (decimal srcPort.toNat ++
        32 :: (decimal dstPort.toNat ++ 13 :: 10 :: more)))) := by
  have hcrlf : ascii "\r\n" = [13, 10] := rfl
  rw [pp1Line, Net.front, hcrlf]
  simp only [List.append_assoc, List.cons_append, List.nil_append]

/-- Text that can stand in a line: no space, carriage return or zero is in it. -/
def Plain (text : List UInt8) : Prop := 32 ∉ text ∧ 13 ∉ text ∧ 0 ∉ text

lemma endsAt_pp1Line (hnet : net.Known) (hsrc : Plain src) (hdst : Plain dst)
    (more : List UInt8) :
    EndsAt (pp1Line net.token src dst srcPort dstPort ++ more)
      (pp1Line net.token src dst srcPort dstPort).length := by
  generalize hfront : net.front ++ (src ++ 32 :: (dst ++ 32 :: (decimal srcPort.toNat ++
    32 :: decimal dstPort.toNat))) = front
  have hline (more : List UInt8) :
      pp1Line net.token src dst srcPort dstPort ++ more = front ++ 13 :: 10 :: more := by
    rw [pp1Line_append, ← hfront]
    simp only [List.append_assoc, List.cons_append]
  have hnot (ch : UInt8) (hch : ch ∉ net.front) (h32 : ch ≠ 32) (hs : ch ∉ src) (hd : ch ∉ dst)
      (hdigit : ¬ (48 ≤ ch ∧ ch ≤ 57)) : ch ∉ front := by
    have hports := decimal_notMem hdigit
    rw [← hfront]
    simp [hch, h32, hs, hd, hports]
  have hzero : 0 ∉ front := by
    refine hnot 0 ?_ (by decide) hsrc.2.2 hdst.2.2 (by decide)
    rcases hnet with rfl | rfl <;> decide
  have hcr : 13 ∉ front := by
    refine hnot 13 ?_ (by decide) hsrc.2.1 hdst.2.1 (by decide)
    rcases hnet with rfl | rfl <;> decide
  have hlength : (pp1Line net.token src dst srcPort dstPort).length = front.length + 2 := by
    have := congrArg List.length (hline [])
    rw [List.append_nil, List.length_append] at this
    exact this
  refine ⟨front.length, ?_, ?_⟩
  · rw [hline]
    exact strstr_pair_append (by decide) (by decide) (by decide) hzero hcr more
  · rw [hlength]
    push_cast
    rfl

/-- What the parser says about a line with these addresses and ports. -/
def lineVerdict (net : Net) (hdrLen : ℤ) (info : PpInfo) (src dst : List UInt8)
    (srcPort dstPort : UInt16) : LineResult :=
  if net.pton src = none then (net.srcErr.code, net.withSrc info src)
  else if net.pton dst = none then (net.dstErr.code, net.withDst info src dst)
  else if srcPort = 0 then (-Err.pp1SrcPort.code, net.withDst info src dst)
  else if dstPort = 0 then
    (-Err.pp1DstPort.code, { net.withDst info src dst with srcPort := srcPort })
  else (hdrLen, net.withPorts info src dst srcPort dstPort)

lemma parseBlock_pp1Line (hnet : net.Known) (hsrc : Plain src) (hdst : Plain dst)
    (hlength : src.length < 108 ∧ dst.length < 108) (more : List UInt8) (info : PpInfo) :
    parseBlock (pp1Line net.token src dst srcPort dstPort ++ more) info =
      .returned (lineVerdict net (pp1Line net.token src dst srcPort dstPort).length info src dst
        srcPort dstPort) := by
  have hend : EndsAt (pp1Line net.token src dst srcPort dstPort ++ more)
      (pp1Line net.token src dst srcPort dstPort).length := endsAt_pp1Line hnet hsrc hdst more
  have hspace : 32 ∉ decimal srcPort.toNat ∧ 0 ∉ decimal srcPort.toNat :=
    ⟨decimal_notMem (by decide) _, decimal_notMem (by decide) _⟩
  have hcr : 13 ∉ decimal dstPort.toNat ∧ 0 ∉ decimal dstPort.toNat :=
    ⟨decimal_notMem (by decide) _, decimal_notMem (by decide) _⟩
  rw [parseBlock_front hnet hend (pp1Line_append net src dst srcPort dstPort more), lineVerdict]
  by_cases hs : net.pton src = none
  · rw [takeTcp, afterSpace_cons, takeAddr_append hsrc.1 hsrc.2.2 hlength.1, if_pos hs, if_pos hs]
    rfl
  have hs' := Option.isSome_iff_ne_none.2 hs
  rw [if_neg hs]
  by_cases hd : net.pton dst = none
  · rw [takeTcp_src hnet hs' hlength.1, takeAddr_append hdst.1 hdst.2.2 hlength.2, if_pos hd,
      if_pos hd]
    rfl
  have hd' := Option.isSome_iff_ne_none.2 hd
  rw [if_neg hd, takeTcp_dst hnet hs' hd' hlength.1 hlength.2]
  by_cases hsp : srcPort = 0
  · rw [takePort_append (by decide) hspace.1 hspace.2, parsePort_decimal, if_pos hsp, if_pos hsp]
    rfl
  rw [if_neg hsp, takePort_portText (by decide) hspace.1 hspace.2 (portText_decimal hsp),
    afterSpace_cons]
  by_cases hdp : dstPort = 0
  · rw [takePort_append (by decide) hcr.1 hcr.2, parsePort_decimal, if_pos hdp, if_pos hdp]
    rfl
  rw [if_neg hdp, takePort_portText (by decide) hcr.1 hcr.2 (portText_decimal hdp)]
  rfl

/-! ## Lines that have been created -/

def netOf (family : UInt8) : Net := if family = addrFamilyInet then net4 else net6

lemma known_netOf (family : UInt8) : (netOf family).Known := by
  unfold netOf
  split_ifs
  · exact .inl rfl
  · exact .inr rfl

lemma length_pp1Line (hnet : net.Known) :
    (pp1Line net.token src dst srcPort dstPort).length = 16 + src.length + dst.length +
      (decimal srcPort.toNat).length + (decimal dstPort.toNat).length := by
  have hline := congrArg List.length (pp1Line_append net src dst srcPort dstPort [])
  have hfront : net.front.length = 11 := by rcases hnet with rfl | rfl <;> rfl
  simp only [List.append_nil, List.length_append, List.length_cons, List.length_nil,
    hfront] at hline
  omega

/-- The line is always shorter than the block it is printed to. -/
lemma length_pp1Line_le (hnet : net.Known) (hsrc : src.length ≤ 39) (hdst : dst.length ≤ 39) :
    (pp1Line net.token src dst srcPort dstPort).length ≤ 104 := by
  have hdecimal (port : UInt16) : (decimal port.toNat).length ≤ 5 :=
    (length_decimal_le_iff (by norm_num)).2 (port.toNat_lt.trans (by norm_num))
  have h₁ := hdecimal srcPort
  have h₂ := hdecimal dstPort
  rw [length_pp1Line hnet]
  omega

variable {host : ByteOrder} {info : PpInfo} {c : Created}

/-- A line that has been created has room for both addresses. -/
lemma pp1CreateHdr_returned (hcreated : pp1CreateHdr info = .returned (.ok c))
    (hfamily : info.addressFamily ≠ addrFamilyUnspec) (hsrc : info.srcAddr.text = .returned src)
    (hdst : info.dstAddr.text = .returned dst) :
    src.length ≤ 39 ∧ dst.length ≤ 39 ∧ c =
      ⟨(pp1Line (netOf info.addressFamily).token src dst info.srcPort info.dstPort).length,
        pp1Line (netOf info.addressFamily).token src dst info.srcPort info.dstPort⟩ := by
  have htoken : (if info.addressFamily = addrFamilyInet then ascii "TCP4" else ascii "TCP6") =
      (netOf info.addressFamily).token := by
    unfold netOf
    split_ifs <;> rfl
  rw [pp1CreateHdr, htoken, if_neg hfamily, hsrc, hdst, Outcome.returned_bind,
    Outcome.returned_bind] at hcreated
  by_cases htransport : info.transportProtocol ≠ transportProtocolUnspec ∧
      info.transportProtocol ≠ transportProtocolStream
  · rw [if_pos htransport] at hcreated
    cases Outcome.returned.inj hcreated
  rw [if_neg htransport] at hcreated
  by_cases hnet : info.addressFamily = addrFamilyInet ∨ info.addressFamily = addrFamilyInet6
  · rw [if_pos hnet] at hcreated
    by_cases hlong : 39 < src.length
    · rw [if_pos hlong] at hcreated
      cases Outcome.returned.inj hcreated
    by_cases hlong' : 39 < dst.length
    · rw [if_neg hlong, if_pos hlong'] at hcreated
      cases Outcome.returned.inj hcreated
    have hle : (pp1Line (netOf info.addressFamily).token src dst info.srcPort
        info.dstPort).length ≤ 104 :=
      length_pp1Line_le (known_netOf info.addressFamily) (not_lt.1 hlong) (not_lt.1 hlong')
    rw [if_neg hlong, if_neg hlong', sprintfBlock, if_pos (by unfold pp1MaxLength; omega),
      Outcome.returned_bind] at hcreated
    exact ⟨not_lt.1 hlong, not_lt.1 hlong', (Except.ok.inj (Outcome.returned.inj hcreated)).symm⟩
  · rw [if_neg hnet] at hcreated
    cases Outcome.returned.inj hcreated

/-- What the parser says about a line that has been created, whatever stands behind it. -/
theorem ppParseHdr_pp1CreateHdr (hcreated : ppCreateHdr host 1 info = .returned (.ok c))
    (hfamily : info.addressFamily ≠ addrFamilyUnspec) (hsrc : info.srcAddr.text = .returned src)
    (hdst : info.dstAddr.text = .returned dst) (hplain : Plain src ∧ Plain dst) (budget : ℕ)
    (rest : List UInt8) {n : ℕ} (hn : c.hdrLen ≤ n) (hn' : n ≤ (c.hdr ++ rest).length) :
    ppParseHdr host budget (c.hdr ++ rest) n =
      .returned ⟨(lineVerdict (netOf info.addressFamily) c.hdrLen .zero src dst info.srcPort
          info.dstPort).1,
        (lineVerdict (netOf info.addressFamily) c.hdrLen .zero src dst info.srcPort
          info.dstPort).2, c.hdr ++ rest⟩ := by
  obtain ⟨hle, hle', rfl⟩ := pp1CreateHdr_returned (c := c) hcreated hfamily hsrc hdst
  have hnet := known_netOf info.addressFamily
  generalize hline : pp1Line (netOf info.addressFamily).token src dst info.srcPort info.dstPort =
    line at *
  have hlength : line.length ≤ 104 := hline ▸ length_pp1Line_le hnet hle hle'
  have hlow : 16 ≤ line.length := by
    rw [← hline, length_pp1Line hnet]
    omega
  obtain ⟨tail, htail⟩ : ∃ tail, line = ascii "PROXY " ++ tail := by
    refine ⟨line.drop 6, ?_⟩
    rw [← hline, pp1Line]
    rfl
  have hsig : pp1Sig <+: line ++ rest := by
    rw [htail]
    exact ⟨_, rfl⟩
  have hsig2 : ¬ pp2Sig <+: line ++ rest := by
    rw [htail]
    rintro ⟨_, h⟩
    cases h
  have htake : (line ++ rest).take (min n 108) =
      line ++ rest.take (min n 108 - line.length) := by
    rw [List.take_append, List.take_of_length_le]
    dsimp only at hn
    omega
  have hblock : blockOf ((line ++ rest).take (min n 108)) =
      line ++ (rest.take (min n 108 - line.length) ++
        List.replicate (108 - ((line ++ rest).take (min n 108)).length) 0) := by
    rw [blockOf, htake, List.append_assoc]
  dsimp only at hn hn' ⊢
  rw [ppParseHdr, if_neg (fun h => hsig2 h.2), if_pos ⟨by omega, hsig⟩, pp1ParseHdr,
    readBytes_of_le (by omega), List.drop_zero, Outcome.returned_bind, hblock, ← hline,
    parseBlock_pp1Line hnet hplain.1 hplain.2 ⟨by omega, by omega⟩]
  rfl

/-- A line with a request behind it; the port of the destination is zero, which is refused. -/
theorem ppParseHdr_pp1CreateHdr_zero_port :
    ppParseHdr .little 0 (ascii "PROXY TCP4 1.2.3.4 5.6.7.8 80 0\r\n" ++ ascii "GET") 36 =
      .returned ⟨-27, { PpInfo.zero with
          addressFamily := addrFamilyInet
          transportProtocol := transportProtocolStream
          srcAddr := .ofText (ascii "1.2.3.4")
          dstAddr := .ofText (ascii "5.6.7.8")
          srcPort := 80 },
        ascii "PROXY TCP4 1.2.3.4 5.6.7.8 80 0\r\n" ++ ascii "GET"⟩ := by
  have hcreated : ppCreateHdr .little 1 { PpInfo.zero with
      addressFamily := addrFamilyInet
      transportProtocol := transportProtocolStream
      srcAddr := .ofText (ascii "1.2.3.4")
      dstAddr := .ofText (ascii "5.6.7.8")
      srcPort := 80 } = .returned (.ok ⟨33, ascii "PROXY TCP4 1.2.3.4 5.6.7.8 80 0\r\n"⟩) := by
    decide +kernel
  have hsrc : (AddrText.ofText (ascii "1.2.3.4")).text = .returned (ascii "1.2.3.4") := by
    decide +kernel
  have hdst : (AddrText.ofText (ascii "5.6.7.8")).text = .returned (ascii "5.6.7.8") := by
    decide +kernel
  have hplain : Plain (ascii "1.2.3.4") ∧ Plain (ascii "5.6.7.8") := by
    unfold Plain
    decide
  refine (ppParseHdr_pp1CreateHdr hcreated (by decide) hsrc hdst hplain 0 (ascii "GET")
    (by decide) (by decide)).trans ?_
  decide +kernel

end ProxyProtocol
