import CPYuZe.AsioServer.Session
import CPYuZe.Library.Budget
import CPYuZe.Library.Inet6
import CPYuZe.ProxyProtocol.Checksum
import CPYuZe.ProxyProtocol.Records

/-!
# Parsing a header of the second version

`pp2_parse_hdr` is given an array and how many bytes of it are of interest.  It looks at the
sixteen bytes at the front (`checkFront`), takes the addresses from the bytes behind them
(`takeAddresses`), and goes through the records in a loop, one turn for each (`tlvTurn`).  The
record about TLS has a loop of its own (`sslTurn`).

The array is longer than what is of interest, as a rule, and a read past what is of interest is a
fault only if it is past the end of the array.  The parser writes into the array: it puts zeros in
the place of the checksum.
-/

namespace ProxyProtocol

open Inet AsioServer

/-- What the parser returns, and what it leaves in `pp_info` and in the array. -/
structure Parsed where
  rc : ℤ
  info : PpInfo
  buffer : List UInt8
  deriving DecidableEq

/-- An error, with `pp_info` as it is by then. -/
structure Refusal where
  err : Err
  info : PpInfo

/-! ## The front and the addresses -/

def checkFront (info : PpInfo) (verCmd fam : UInt8) (bufferLength len : ℕ) :
    Except Refusal PpInfo :=
  if verCmd >>> 4 ≠ 2 then .error ⟨.pp2Version, info⟩
  else if verCmd &&& 0x0f ≠ 0 ∧ verCmd &&& 0x0f ≠ 1 then .error ⟨.pp2Cmd, info⟩
  else
    let info := { info with
      isLocal := if verCmd &&& 0x0f = 0 then 1 else 0
      addressFamily := fam >>> 4 }
    if addrFamilyUnix < fam >>> 4 then .error ⟨.pp2AddrFamily, info⟩
    else
      let info := { info with transportProtocol := fam &&& 0x0f }
      if transportProtocolDgram < fam &&& 0x0f then .error ⟨.pp2TransportProtocol, info⟩
      else if bufferLength < 16 + len then .error ⟨.pp2Length, info⟩
      else .ok info

/-- Two addresses of `n` bytes and the ports, from the sixteenth byte on. -/
def takeInet (ntop : List UInt8 → List UInt8) (n : ℕ) (buffer : List UInt8) (info : PpInfo) :
    Outcome Fault PpInfo :=
  readBytes buffer 16 n >>= fun src =>
    readBytes buffer (16 + n) n >>= fun dst =>
      readByte buffer (16 + 2 * n) >>= fun srcHi =>
        readByte buffer (17 + 2 * n) >>= fun srcLo =>
          readByte buffer (18 + 2 * n) >>= fun dstHi =>
            readByte buffer (19 + 2 * n) >>= fun dstLo =>
              .returned { info with
                srcAddr := .ofText (ntop src)
                dstAddr := .ofText (ntop dst)
                srcPort := portOf srcHi srcLo
                dstPort := portOf dstHi dstLo }

/-- The addresses, and then where the records begin and `tlv_vectors_len`. -/
def takeAddresses (buffer : List UInt8) (len : ℕ) (info : PpInfo) :
    Outcome Fault (Except Refusal (PpInfo × ℕ × ℕ)) :=
  if info.addressFamily = addrFamilyUnspec then .returned (.ok (info, 16, len))
  else if info.addressFamily = addrFamilyInet ∧ 12 ≤ len then
    takeInet inetNtop4 4 buffer info >>= fun info => .returned (.ok (info, 28, len - 12))
  else if info.addressFamily = addrFamilyInet6 ∧ 36 ≤ len then
    takeInet inetNtop6 16 buffer info >>= fun info => .returned (.ok (info, 52, len - 36))
  else if info.addressFamily = addrFamilyUnix ∧ 216 ≤ len then
    readBytes buffer 16 108 >>= fun src =>
      readBytes buffer 124 108 >>= fun dst =>
        .returned (.ok ({ info with srcAddr := .ofText src, dstAddr := .ofText dst }, 16, 0))
  else .returned (.error ⟨.pp2Length, info⟩)

/-! ## Records -/

/-- Where the loop over the records is: `buffer` is the array, `pos` is where the pointer stands,
and `left` is `tlv_vectors_len`. -/
structure Scan where
  buffer : List UInt8
  pos : ℕ
  left : ℕ
  info : PpInfo

/-- What a record does: it changes the array and `pp_info`, or there is an error. -/
abbrev Taken := Except (Err × List UInt8 × PpInfo) (List UInt8 × PpInfo)

/-- A record is appended. -/
def appendTaken (buffer : List UInt8) (info : PpInfo) (tlv : Outcome Fault Tlv) :
    Outcome Fault Taken :=
  tlv >>= fun tlv => .returned (.ok (buffer, info.append tlv))

/-- `memset` in the array. -/
def zeroBytes (buffer : List UInt8) (i n : ℕ) : List UInt8 :=
  buffer.take i ++ List.replicate n 0 ++ buffer.drop (i + n)

/-- The record with the checksum; `value` is where its value stands. -/
def takeCrc32c (host : ByteOrder) (hdrLen : ℕ) (buffer : List UInt8) (info : PpInfo)
    (value length : ℕ) : Outcome Fault Taken :=
  if length ≠ 4 then .returned (.error (.pp2TypeCrc32c, buffer, info))
  else
    readBytes buffer value 4 >>= fun crc32cChksum =>
      readBytes (zeroBytes buffer value 4) 0 hdrLen >>= fun hdr =>
        if crc32cChksum ≠ hostBytes host (crc32c hdr) then
          .returned (.error (.pp2TypeCrc32c, zeroBytes buffer value 4, info))
        else
          appendTaken (zeroBytes buffer value 4) info (tlvNew pp2TypeCrc32c 4 crc32cChksum 0)
            >>= fun taken =>
              .returned (taken.map fun (buffer, info) => (buffer, { info with crc32c := 1 }))

/-- Where the loop over the records about TLS is. -/
structure SslScan where
  versionFound : Bool
  offset : ℕ
  info : PpInfo

/-- A turn of that loop, in the array from `subTlv` on. -/
def sslTurn (buffer : List UInt8) (subTlv tlvsSslLen : ℕ) (s : SslScan) :
    Outcome Fault (Outcome.Turn SslScan (Except (Err × PpInfo) SslScan)) :=
  if s.offset < tlvsSslLen then
    readByte buffer (subTlv + s.offset) >>= fun type =>
      readByte buffer (subTlv + s.offset + 1) >>= fun hi =>
        readByte buffer (subTlv + s.offset + 2) >>= fun lo =>
          if type = pp2SubtypeSslVersion ∨ type = pp2SubtypeSslCipher ∨
              type = pp2SubtypeSslSigAlg ∨ type = pp2SubtypeSslKeyAlg then
            tlvNewUsascii type (Tlv.field hi lo) buffer (subTlv + s.offset + 3) >>= fun tlv =>
              .returned (.next ⟨s.versionFound || type = pp2SubtypeSslVersion,
                (s.offset + 3 + Tlv.field hi lo) % 65536, s.info.append tlv⟩)
          else if type = pp2SubtypeSslCn then
            tlvNew type (Tlv.field hi lo) buffer (subTlv + s.offset + 3) >>= fun tlv =>
              .returned (.next ⟨s.versionFound,
                (s.offset + 3 + Tlv.field hi lo) % 65536, s.info.append tlv⟩)
          else .returned (.done (.error (.pp2TypeSsl, s.info)))
  else .returned (.done (.ok s))

/-- The bits of `client`, and whether `verify` is zero. -/
def sslInfoOf (client : UInt8) (verify : List UInt8) : SslInfo where
  ssl := if client &&& 1 ≠ 0 then 1 else 0
  certInConnection := if client &&& 2 ≠ 0 then 1 else 0
  certInSession := if client &&& 4 ≠ 0 then 1 else 0
  certVerified := if verify = [0, 0, 0, 0] then 1 else 0

/-- `pp_info_t` with these flags. -/
def PpInfo.withSsl (info : PpInfo) (ssl : SslInfo) : PpInfo := { info with pp2SslInfo := ssl }

/-- What is checked behind the loop. -/
def sslEnd (buffer : List UInt8) (tlvsSslLen : ℕ) : Except (Err × PpInfo) SslScan → Taken
  | .error (e, info) => .error (e, buffer, info)
  | .ok s =>
    if tlvsSslLen < s.offset ∨ (s.info.pp2SslInfo.ssl ≠ 0 ∧ s.versionFound = false) then
      .error (.pp2TypeSsl, buffer, s.info)
    else .ok (buffer, s.info)

/-- The record about TLS.  The length of what is behind the five bytes at its front is computed in
sixteen bits. -/
def takeSsl (budget : ℕ) (buffer : List UInt8) (info : PpInfo) (value length : ℕ) :
    Outcome Fault Taken :=
  readByte buffer value >>= fun client =>
    readBytes buffer (value + 1) 4 >>= fun verify =>
      Outcome.loop (sslTurn buffer (value + 5) ((length + 65531) % 65536)) budget
        ⟨false, 0, info.withSsl (sslInfoOf client verify)⟩ >>= fun scanned =>
          .returned (sslEnd buffer ((length + 65531) % 65536) scanned)

/-- The `switch` over the type of a record. -/
def takeTlv (host : ByteOrder) (budget hdrLen : ℕ) (buffer : List UInt8) (info : PpInfo)
    (type : UInt8) (value length : ℕ) : Outcome Fault Taken :=
  if type = pp2TypeAlpn ∨ type = pp2TypeAuthority then
    appendTaken buffer info (tlvNew type length buffer value)
  else if type = pp2TypeCrc32c then takeCrc32c host hdrLen buffer info value length
  else if type = pp2TypeNoop then .returned (.ok (buffer, info))
  else if type = pp2TypeUniqueId then
    if 128 < length then .returned (.error (.pp2TypeUniqueId, buffer, info))
    else appendTaken buffer info (tlvNew type length buffer value)
  else if type = pp2TypeSsl then takeSsl budget buffer info value length
  else if type = pp2TypeNetns then appendTaken buffer info (tlvNewUsascii type length buffer value)
  else if type = pp2TypeAws then
    if length < 2 then .returned (.error (.pp2TypeAws, buffer, info))
    else
      readByte buffer value >>= fun subtype =>
        if subtype = pp2SubtypeAwsVpceId then
          appendTaken buffer info (tlvNewUsascii type length buffer value)
        else .returned (.ok (buffer, info))
  else if type = pp2TypeAzure then
    if length < 5 then .returned (.error (.pp2TypeAzure, buffer, info))
    else
      readByte buffer value >>= fun subtype =>
        if subtype = pp2SubtypeAzurePrivateendpointLinkid then
          appendTaken buffer info (tlvNew type length buffer value)
        else .returned (.ok (buffer, info))
  else .returned (.ok (buffer, info))

/-- Where the loop goes from a record of which `offset` bytes are passed. -/
def moveOn (s : Scan) (offset : ℕ) : Taken → Outcome.Turn Scan Parsed
  | .error (e, buffer, info) => .done ⟨-e.code, info, buffer⟩
  | .ok (buffer, info) => .next ⟨buffer, s.pos + offset, s.left - offset, info⟩

/-- A turn of the loop over the records. -/
def tlvTurn (host : ByteOrder) (budget hdrLen : ℕ) (s : Scan) :
    Outcome Fault (Outcome.Turn Scan Parsed) :=
  if 3 < s.left then
    readByte s.buffer s.pos >>= fun type =>
      readByte s.buffer (s.pos + 1) >>= fun hi =>
        readByte s.buffer (s.pos + 2) >>= fun lo =>
          if s.left < (3 + Tlv.field hi lo) % 65536 then
            .returned (.done ⟨-Err.pp2TlvLength.code, s.info, s.buffer⟩)
          else
            takeTlv host budget hdrLen s.buffer s.info type (s.pos + 3) (Tlv.field hi lo)
              >>= fun taken => .returned (moveOn s ((3 + Tlv.field hi lo) % 65536) taken)
  else .returned (.done ⟨hdrLen, s.info, s.buffer⟩)

/-! ## The parsers -/

def pp2ParseHdr (host : ByteOrder) (budget : ℕ) (buffer : List UInt8) (bufferLength : ℕ)
    (info : PpInfo) : Outcome Fault Parsed :=
  readByte buffer 12 >>= fun verCmd =>
    readByte buffer 13 >>= fun fam =>
      readByte buffer 14 >>= fun lenHi =>
        readByte buffer 15 >>= fun lenLo =>
          match checkFront info verCmd fam bufferLength (Tlv.field lenHi lenLo) with
          | .error ⟨e, info⟩ => .returned ⟨-e.code, info, buffer⟩
          | .ok info =>
            takeAddresses buffer (Tlv.field lenHi lenLo) info >>= fun addresses =>
              match addresses with
              | .error ⟨e, info⟩ => .returned ⟨-e.code, info, buffer⟩
              | .ok (info, pos, left) =>
                Outcome.loop (tlvTurn host budget (16 + Tlv.field lenHi lenLo)) budget
                  ⟨buffer, pos, left, info⟩

end ProxyProtocol
