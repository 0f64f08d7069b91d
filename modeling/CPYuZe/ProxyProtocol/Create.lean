import CPYuZe.AsioServer.Session
import CPYuZe.Library.Inet6
import CPYuZe.ProxyProtocol.Checksum
import CPYuZe.ProxyProtocol.Records

/-!
# Creating a header

`pp_create_hdr` makes a header out of a `pp_info_t`.  In the second version the sixteen bytes at
the front, the addresses, the records, a record of zeros for the alignment and one with the
checksum are copied one after the other into memory for as many bytes as have been counted before
(`Room`).  The counting is done in sixteen bits.  Each copy is checked against the memory (`emit`),
and where the C code writes past its end there is no header.
-/

namespace ProxyProtocol

open Inet AsioServer

/-! ## The addresses -/

/-- The bytes of an address text, if `inet_pton` takes it. -/
def addrBytes (pton : List UInt8 → Option (List UInt8)) (e : Err) (a : AddrText) :
    Outcome Fault (Except Err (List UInt8)) :=
  a.text >>= fun text =>
    match pton text with
    | some bytes => .returned (.ok bytes)
    | none => .returned (.error e)

/-- Two addresses and the ports. -/
def inetBytes (pton : List UInt8 → Option (List UInt8)) (src dst : Err) (info : PpInfo) :
    Outcome Fault (Except Err (List UInt8)) :=
  addrBytes pton src info.srcAddr >>= fun srcBytes =>
    match srcBytes with
    | .error e => .returned (.error e)
    | .ok srcBytes =>
      addrBytes pton dst info.dstAddr >>= fun dstBytes =>
        match dstBytes with
        | .error e => .returned (.error e)
        | .ok dstBytes => .returned (.ok
            (srcBytes ++ dstBytes ++ portBytes info.srcPort ++ portBytes info.dstPort))

/-- The version with the command, and `proxy_addr`. -/
def pp2Addr (info : PpInfo) : Outcome Fault (Except Err (UInt8 × List UInt8)) :=
  if info.addressFamily = addrFamilyUnspec then
    if info.isLocal = 0 then .returned (.error .pp2Cmd) else .returned (.ok (0x20, []))
  else if info.addressFamily = addrFamilyInet then
    inetBytes inetPton4 .pp2Ipv4SrcIp .pp2Ipv4DstIp info >>= fun bytes =>
      .returned (bytes.map (0x21, ·))
  else if info.addressFamily = addrFamilyInet6 then
    inetBytes inetPton6 .pp2Ipv6SrcIp .pp2Ipv6DstIp info >>= fun bytes =>
      .returned (bytes.map (0x21, ·))
  else if info.addressFamily = addrFamilyUnix then
    .returned (.ok (0x21, info.srcAddr.chars ++ info.dstAddr.chars))
  else .returned (.error .pp2AddrFamily)

/-! ## How long it will be -/

/-- `tlv_len`, in sixteen bits. -/
def tlvLen (tlv : Tlv) : ℕ := (3 + tlv.value.length) % 65536

/-- The number in the header, the number of bytes allocated, and how many zeros there are in the
record for the alignment. -/
structure Room where
  len : ℕ
  hdrLen : ℕ
  paddingBytes : ℕ

/-- The length before alignment. -/
def plainLen (info : PpInfo) (addrLen : ℕ) : ℕ :=
  (addrLen + (info.tlvs.map tlvLen).sum + if info.crc32c ≠ 0 then 7 else 0) % 65536

/-- The multiple of the alignment that the header grows to; a record takes three bytes at least. -/
def paddedLen (alignment hdrLen : ℕ) : ℕ :=
  if ((hdrLen / alignment + 1) * alignment) % 65536 < hdrLen + 3 then
    (((hdrLen / alignment + 1) * alignment) % 65536 + alignment) % 65536
  else ((hdrLen / alignment + 1) * alignment) % 65536

def room (info : PpInfo) (addrLen : ℕ) : Outcome Fault Room :=
  let len := plainLen info addrLen
  let hdrLen := (16 + len) % 65536
  if info.alignmentPower ≤ 1 then .returned ⟨len, hdrLen, 0⟩
  else if 32 ≤ info.alignmentPower then .faulted .shift
  else if 2 ^ info.alignmentPower.toNat % 65536 = 0 then .faulted .divideByZero
  else
    let alignment := 2 ^ info.alignmentPower.toNat % 65536
    if hdrLen % alignment = 0 then .returned ⟨len, hdrLen, 0⟩
    else
      let padded := paddedLen alignment hdrLen
      .returned ⟨(padded + 65520) % 65536, padded, (padded + 65536 * 2 - 19 - len) % 65536⟩

/-! ## Writing -/

/-- A header: the number that the caller is told, and the bytes that have been written. -/
structure Created where
  hdrLen : ℕ
  hdr : List UInt8
  deriving DecidableEq

/-- A copy behind the bytes written so far. -/
def emit (hdrLen : ℕ) (hdr bytes : List UInt8) : Outcome Fault (List UInt8) :=
  if hdr.length + bytes.length ≤ hdrLen then .returned (hdr ++ bytes) else .faulted .outOfBounds

/-- The copies of a loop. -/
def emitAll (hdrLen : ℕ) (hdr : List UInt8) : List (List UInt8) → Outcome Fault (List UInt8)
  | [] => .returned hdr
  | bytes :: rest => emit hdrLen hdr bytes >>= fun hdr => emitAll hdrLen hdr rest

/-- `proxy_hdr_v2_t`. -/
def hdrFront (verCmd fam : UInt8) (len : ℕ) : List UInt8 :=
  pp2Sig ++ [verCmd, fam, UInt8.ofNat (len / 256), UInt8.ofNat len]

/-- The record for the alignment. -/
def emitPadding (info : PpInfo) (room : Room) (hdr : List UInt8) : Outcome Fault (List UInt8) :=
  if info.alignmentPower ≤ 1 then .returned hdr
  else
    emitAll room.hdrLen hdr [[pp2TypeNoop, UInt8.ofNat (room.paddingBytes / 256),
      UInt8.ofNat room.paddingBytes], List.replicate room.paddingBytes 0]

/-- The record with the checksum, which is that of the header with zeros in its place. -/
def emitCrc32c (host : ByteOrder) (info : PpInfo) (room : Room) (hdr : List UInt8) :
    Outcome Fault (List UInt8) :=
  if info.crc32c = 0 then .returned hdr
  else
    emitAll room.hdrLen hdr [[pp2TypeCrc32c, 0, 4], [0, 0, 0, 0]] >>= fun zeroed =>
      .returned (zeroed.take (hdr.length + 3) ++
        hostBytes host (crc32c (zeroed.take room.hdrLen)))

def pp2CreateHdr (host : ByteOrder) (info : PpInfo) : Outcome Fault (Except Err Created) :=
  pp2Addr info >>= fun addr =>
    match addr with
    | .error e => .returned (.error e)
    | .ok (verCmd, proxyAddr) =>
      if transportProtocolDgram < info.transportProtocol then
        .returned (.error .pp2TransportProtocol)
      else
        room info proxyAddr.length >>= fun room =>
          emitAll room.hdrLen [] (hdrFront verCmd
              ((info.addressFamily <<< 4) ||| info.transportProtocol) room.len ::
              proxyAddr :: info.tlvs.map fun tlv => tlv.bytes.take (tlvLen tlv)) >>= fun hdr =>
            emitPadding info room hdr >>= fun hdr =>
              emitCrc32c host info room hdr >>= fun hdr => .returned (.ok ⟨room.hdrLen, hdr⟩)

/-- `pp2_create_healthcheck_hdr`: all but three fields of `pp_info` hold what was on the stack. -/
def pp2CreateHealthcheckHdr (host : ByteOrder) (stack : PpInfo) :
    Outcome Fault (Except Err Created) :=
  pp2CreateHdr host { stack with
    addressFamily := addrFamilyUnspec
    transportProtocol := transportProtocolUnspec
    isLocal := 1 }

/-! ## The first version -/

/-- The line for want of addresses. -/
def pp1Unknown : List UInt8 := ascii "PROXY UNKNOWN\r\n"

/-- The line for two addresses. -/
def pp1Line (fam src dst : List UInt8) (srcPort dstPort : UInt16) : List UInt8 :=
  ascii "PROXY " ++ fam ++ 32 :: src ++ 32 :: dst ++ 32 :: decimal srcPort.toNat ++
    32 :: decimal dstPort.toNat ++ ascii "\r\n"

/-- `PP1_MAX_LENGHT`. -/
def pp1MaxLength : ℕ := 108

/-- `sprintf` into `block`, with the zero at the end. -/
def sprintfBlock (text : List UInt8) : Outcome Fault (List UInt8) :=
  if text.length + 1 ≤ pp1MaxLength then .returned text else .faulted .outOfBounds

def pp1CreateHdr (info : PpInfo) : Outcome Fault (Except Err Created) :=
  if info.transportProtocol ≠ transportProtocolUnspec ∧
      info.transportProtocol ≠ transportProtocolStream then
    .returned (.error .pp1TransportFamily)
  else if info.addressFamily = addrFamilyUnspec then
    .returned (.ok ⟨pp1Unknown.length, pp1Unknown⟩)
  else if info.addressFamily = addrFamilyInet ∨ info.addressFamily = addrFamilyInet6 then
    info.srcAddr.text >>= fun src =>
      if 39 < src.length then .returned (.error .pp1Ipv4SrcIp)
      else
        info.dstAddr.text >>= fun dst =>
          if 39 < dst.length then .returned (.error .pp1Ipv4DstIp)
          else
            sprintfBlock (pp1Line
              (if info.addressFamily = addrFamilyInet then ascii "TCP4" else ascii "TCP6")
              src dst info.srcPort info.dstPort) >>= fun line => .returned (.ok ⟨line.length, line⟩)
  else .returned (.error .pp1TransportFamily)

def ppCreateHdr (host : ByteOrder) (version : UInt8) (info : PpInfo) :
    Outcome Fault (Except Err Created) :=
  if version = 2 then pp2CreateHdr host info
  else if version = 1 then pp1CreateHdr info
  else .returned (.error .ppVersion)

end ProxyProtocol
