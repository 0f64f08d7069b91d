import CPYuZe.Library.CString
import CPYuZe.Library.Outcome
import CPYuZe.Library.TypeLengthValue

/-!
# What a PROXY protocol header says

`pp_info_t` holds what a header says or is to say: addresses and ports, and for the second version
a list of records (`TlvArray`) with what it says about TLS.  This file has the error codes, the
operations on the array, and the functions that add to it and look things up in it.

An allocation never fails.  A copy out of an array or into it is checked against the array, and a
number of the type `uint16_t` is a natural number that is cut where the C code cuts it.
-/

namespace ProxyProtocol

inductive Fault
  /-- A read or a write outside an array. -/
  | outOfBounds
  | divideByZero
  /-- A shift by the width of the operand or more. -/
  | shift
  deriving DecidableEq

/-! ## Errors -/

inductive Err
  | null
  | ppVersion
  | pp2Sig
  | pp2Version
  | pp2Cmd
  | pp2AddrFamily
  | pp2TransportProtocol
  | pp2Length
  | pp2Ipv4SrcIp
  | pp2Ipv4DstIp
  | pp2Ipv6SrcIp
  | pp2Ipv6DstIp
  | pp2TlvLength
  | pp2TypeCrc32c
  | pp2TypeSsl
  | pp2TypeUniqueId
  | pp2TypeAws
  | pp2TypeAzure
  | pp1Crlf
  | pp1Proxy
  | pp1Space
  | pp1TransportFamily
  | pp1Ipv4SrcIp
  | pp1Ipv4DstIp
  | pp1Ipv6SrcIp
  | pp1Ipv6DstIp
  | pp1SrcPort
  | pp1DstPort
  | heapAlloc
  deriving DecidableEq

/-- The number of an error. -/
def Err.code (e : Err) : ℤ := e.ctorIdx

def errors : List String :=
  ["No error",
    "Invalid PROXY protocol version given. Only 1 and 2 are valid",
    "v2 PROXY protocol header: wrong signature",
    "v2 PROXY protocol header: wrong version",
    "v2 PROXY protocol header: wrong command",
    "v2 PROXY protocol header: wrong address family",
    "v2 PROXY protocol header: wrong transport protocol",
    "v2 PROXY protocol header: length",
    "v2 PROXY protocol header: invalid IPv4 src IP",
    "v2 PROXY protocol header: invalid IPv4 dst IP",
    "v2 PROXY protocol header: invalid IPv6 src IP",
    "v2 PROXY protocol header: invalid IPv6 dst IP",
    "v2 PROXY protocol header: invalid TLV vector's length",
    "v2 PROXY protocol header: invalid PP2_TYPE_CRC32C",
    "v2 PROXY protocol header: invalid PP2_TYPE_SSL",
    "v2 PROXY protocol header: invalid PP2_TYPE_UNIQUE_ID",
    "v2 PROXY protocol header: invalid PP2_TYPE_AWS",
    "v2 PROXY protocol header: invalid PP2_TYPE_AZURE",
    "v1 PROXY protocol header: \"\\r\\n\" is missing",
    "v1 PROXY protocol header: \"PROXY\" is missing",
    "v1 PROXY protocol header: space is missing",
    "v1 PROXY protocol header: wrong transport protocol or address family",
    "v1 PROXY protocol header: invalid IPv4 src IP",
    "v1 PROXY protocol header: invalid IPv4 dst IP",
    "v1 PROXY protocol header: invalid IPv6 src IP",
    "v1 PROXY protocol header: invalid IPv6 dst IP",
    "v1 PROXY protocol header: invalid src port",
    "v1 PROXY protocol header: invalid dst port",
    "Heap memory allocation failure"]

def ppStrerror (error : ℤ) : Option String :=
  if error < -Err.heapAlloc.code ∨ Err.null.code < error then none
  else errors[(-error).toNat]?

lemma ctorIdx_ofNat : ∀ n : Fin 29, (Err.ofNat n).ctorIdx = n := by decide

/-- There is a text for the negative of every error, and for no other number. -/
lemma ppStrerror_isSome_iff {error : ℤ} :
    (ppStrerror error).isSome ↔ ∃ e : Err, error = -e.code := by
  unfold ppStrerror
  constructor
  · intro h
    split_ifs at h with hrange
    · cases h
    · have hlow : -28 ≤ error := not_lt.1 (not_or.1 hrange).1
      have hhigh : error ≤ 0 := not_lt.1 (not_or.1 hrange).2
      have hcode := ctorIdx_ofNat ⟨(-error).toNat, by omega⟩
      refine ⟨Err.ofNat (-error).toNat, ?_⟩
      rw [Err.code, hcode]
      dsimp only
      omega
  · rintro ⟨e, rfl⟩
    cases e <;> rfl

/-! ## What is known of a connection -/

/-- `pp2_ssl_info_t`. -/
structure SslInfo where
  ssl : UInt8
  certInConnection : UInt8
  certInSession : UInt8
  certVerified : UInt8
  deriving DecidableEq

/-- `tlv_array_t`: `size` elements are allocated, none at all as long as `tlvs` is null. -/
structure TlvArray where
  size : ℕ
  tlvs : List Tlv
  fits : tlvs.length ≤ size
  deriving DecidableEq

/-- An address, in an array of 108 characters. -/
structure AddrText where
  chars : List UInt8
  length_eq : chars.length = 108
  deriving DecidableEq

/-- `pp_info_t`, with `pp2_info_t` in it. -/
structure PpInfo where
  addressFamily : UInt8
  transportProtocol : UInt8
  srcAddr : AddrText
  dstAddr : AddrText
  srcPort : UInt16
  dstPort : UInt16
  /-- The field `local`. -/
  isLocal : UInt8
  alignmentPower : UInt8
  pp2SslInfo : SslInfo
  tlvArray : TlvArray
  crc32c : UInt8
  deriving DecidableEq

abbrev addrFamilyUnspec : UInt8 := 0
abbrev addrFamilyInet : UInt8 := 1
abbrev addrFamilyInet6 : UInt8 := 2
abbrev addrFamilyUnix : UInt8 := 3

abbrev transportProtocolUnspec : UInt8 := 0
abbrev transportProtocolStream : UInt8 := 1
abbrev transportProtocolDgram : UInt8 := 2

namespace AddrText

/-- Text at the front of an array of zeros. -/
def ofText (text : List UInt8) : AddrText where
  chars := (text ++ List.replicate 108 0).take 108
  length_eq := by simp

/-- The text in the array, which has to end in it. -/
def text (a : AddrText) : Outcome Fault (List UInt8) :=
  if 0 ∈ a.chars then .returned (cstr a.chars) else .faulted .outOfBounds

lemma chars_ofText {text : List UInt8} (h : text.length ≤ 108) :
    (ofText text).chars = text ++ List.replicate (108 - text.length) 0 := by
  show (text ++ List.replicate 108 0).take 108 = _
  rw [List.take_append, List.take_of_length_le h, List.take_replicate]
  congr 2
  omega

lemma text_ofText {text : List UInt8} (h : text.length < 108) (hzero : 0 ∉ text) :
    (ofText text).text = .returned text := by
  obtain ⟨n, hn⟩ : ∃ n, 108 - text.length = n + 1 := ⟨107 - text.length, by omega⟩
  have hchars := chars_ofText h.le
  rw [hn, List.replicate_succ] at hchars
  rw [AddrText.text, hchars, if_pos (List.mem_append_right _ List.mem_cons_self),
    cstr_append_zero hzero]

end AddrText

/-! ## Numbers in memory -/

/-- The order of the bytes of a number on the host. -/
inductive ByteOrder
  | little
  | big
  deriving DecidableEq

/-- A number of the type `uint32_t` as it stands in memory. -/
def hostBytes (host : ByteOrder) (n : BitVec 32) : List UInt8 :=
  let bytes := [UInt8.ofNat n.toNat, UInt8.ofNat (n.toNat / 2 ^ 8), UInt8.ofNat (n.toNat / 2 ^ 16),
    UInt8.ofNat (n.toNat / 2 ^ 24)]
  match host with
  | .little => bytes
  | .big => bytes.reverse

@[simp] lemma length_hostBytes (host : ByteOrder) (n : BitVec 32) :
    (hostBytes host n).length = 4 := by
  cases host <;> rfl

/-- `htons`: the bytes of a port on the way. -/
def portBytes (port : UInt16) : List UInt8 :=
  [UInt8.ofNat (port.toNat / 256), UInt8.ofNat port.toNat]

/-- `ntohs`. -/
def portOf (hi lo : UInt8) : UInt16 := UInt16.ofNat (Tlv.field hi lo)

/-! ## Memory -/

/-- `n` bytes of an array from `i` on. -/
def readBytes (mem : List UInt8) (i n : ℕ) : Outcome Fault (List UInt8) :=
  if i + n ≤ mem.length then .returned ((mem.drop i).take n) else .faulted .outOfBounds

def readByte (mem : List UInt8) (i : ℕ) : Outcome Fault UInt8 :=
  match mem[i]? with
  | some b => .returned b
  | none => .faulted .outOfBounds

section Read

variable {mem : List UInt8} {i n : ℕ}

lemma readBytes_of_le (h : i + n ≤ mem.length) :
    readBytes mem i n = .returned ((mem.drop i).take n) := if_pos h

lemma readByte_of_getElem? {b : UInt8} (h : mem[i]? = some b) : readByte mem i = .returned b := by
  rw [readByte, h]

end Read

/-! ## Records -/

/-- `PP2_TYPE_ALPN`, and so on. -/
abbrev pp2TypeAlpn : UInt8 := 0x01
abbrev pp2TypeAuthority : UInt8 := 0x02
abbrev pp2TypeCrc32c : UInt8 := 0x03
abbrev pp2TypeNoop : UInt8 := 0x04
abbrev pp2TypeUniqueId : UInt8 := 0x05
abbrev pp2TypeSsl : UInt8 := 0x20
abbrev pp2SubtypeSslVersion : UInt8 := 0x21
abbrev pp2SubtypeSslCn : UInt8 := 0x22
abbrev pp2SubtypeSslCipher : UInt8 := 0x23
abbrev pp2SubtypeSslSigAlg : UInt8 := 0x24
abbrev pp2SubtypeSslKeyAlg : UInt8 := 0x25
abbrev pp2TypeNetns : UInt8 := 0x30
abbrev pp2TypeAws : UInt8 := 0xEA
abbrev pp2TypeAzure : UInt8 := 0xEE
abbrev pp2SubtypeAwsVpceId : UInt8 := 0x01
abbrev pp2SubtypeAzurePrivateendpointLinkid : UInt8 := 0x01

/-- `tlv_new`, with the value at `i` in `mem`. -/
def tlvNew (type : UInt8) (length : ℕ) (mem : List UInt8) (i : ℕ) : Outcome Fault Tlv :=
  if i + length % 65536 ≤ mem.length then
    .returned ⟨type, (mem.drop i).take (length % 65536),
      (List.length_take_le _ _).trans_lt (Nat.mod_lt _ (by norm_num))⟩
  else .faulted .outOfBounds

/-- The record that `tlv_array_append_tlv_new_usascii` appends: one byte more is copied, and a zero
takes its place. -/
def tlvNewUsascii (type : UInt8) (length : ℕ) (mem : List UInt8) (i : ℕ) : Outcome Fault Tlv :=
  tlvNew type (length + 1) mem i >>= fun tlv =>
    if length < tlv.value.length then
      .returned ⟨type, tlv.value.set length 0, (List.length_set).trans_lt tlv.length_lt⟩
    else .faulted .outOfBounds

namespace TlvArray

/-- An array that has been cleared. -/
def empty : TlvArray := ⟨0, [], le_refl 0⟩

/-- `tlv_array_append_tlv`. -/
def append (a : TlvArray) (tlv : Tlv) : TlvArray :=
  if hnull : a.size = 0 then ⟨10, [tlv], by norm_num⟩
  else if hfull : a.size = a.tlvs.length then
    ⟨a.size + 5, a.tlvs ++ [tlv], by rw [List.length_append, hfull]; simp⟩
  else ⟨a.size, a.tlvs ++ [tlv], by
    rw [List.length_append, List.length_singleton]; have := a.fits; omega⟩

end TlvArray

namespace PpInfo

/-- What `memset(pp_info, 0, sizeof(*pp_info))` leaves. -/
def zero : PpInfo where
  addressFamily := 0
  transportProtocol := 0
  srcAddr := .ofText []
  dstAddr := .ofText []
  srcPort := 0
  dstPort := 0
  isLocal := 0
  alignmentPower := 0
  pp2SslInfo := ⟨0, 0, 0, 0⟩
  tlvArray := .empty
  crc32c := 0

def append (info : PpInfo) (tlv : Tlv) : PpInfo :=
  { info with tlvArray := info.tlvArray.append tlv }

/-- The records in the array. -/
abbrev tlvs (info : PpInfo) : List Tlv := info.tlvArray.tlvs

end PpInfo

end ProxyProtocol
