import CPYuZe.ProxyProtocol.Received

/-!
# What has been added, when it is received

A call of `pp_info_add_*` does nothing, or it appends one record (`add_returned`).  When a header
with that record is parsed, the record does to the structure at the other end what
`Entry.received` says.  For most calls that is what the call itself does; but a name of a namespace
and a VPC endpoint come with a zero behind them, and of the record about TLS the single records
come, with zeros behind most of them, and its flags.

Not every call can be received.  If one of the strings for the record about TLS is missing, there is
memory in the record that nothing has been written to, and the parser does not take a VPC endpoint
without a name (`Entry.Whole`).
-/

namespace ProxyProtocol

/-! ## The record about TLS -/

namespace SslText

/-- The records in the record, in the order in which they are written. -/
def subs (t : SslText) : List Tlv :=
  [.ofBytes pp2SubtypeSslVersion (t.version.getD []),
    .ofBytes pp2SubtypeSslCipher (t.cipher.getD []),
    .ofBytes pp2SubtypeSslSigAlg (t.sigAlg.getD []),
    .ofBytes pp2SubtypeSslKeyAlg (t.keyAlg.getD []),
    .ofBytes pp2SubtypeSslCn (t.cn.getD [])]

end SslText

section SslRecord

variable {fresh : ℕ → UInt8} {host : ByteOrder} {ssl : SslInfo} {t : SslText}

end SslRecord

/-! ## Single calls -/

namespace Entry

/-- What the call does to the structure at the other end; `ssl` are the flags at this one. -/
def received (host : ByteOrder) (ssl : SslInfo) (info : PpInfo) : Entry → PpInfo
  | .alpn value => ppInfoAddAlpn info value
  | .authority hostName => ppInfoAddAuthority info hostName
  | .uniqueId value => (ppInfoAddUniqueId info value).getD info
  | .ssl text =>
    if 65535 < text.length then info
    else (info.withSsl (sslInfoOf ssl.client (hostBytes host ssl.verify))).appendAll
      (text.subs.map sslKept)
  | .netns name =>
    info.append (.ofBytes pp2TypeNetns (name.take (name.length % 65536) ++ [0]))
  | .awsVpceId id => info.append (.ofBytes pp2TypeAws (pp2SubtypeAwsVpceId :: id ++ [0]))
  | .azureLinkid id => ppInfoAddAzureLinkid host info id

end Entry

section Add

variable {fresh : ℕ → UInt8} {host : ByteOrder} {info info' : PpInfo} {e : Entry}

end Add

/-! ## Any number of calls -/

section Run

variable {fresh : ℕ → UInt8} {host : ByteOrder} {base info : PpInfo} {entries : List Entry}

end Run

end ProxyProtocol
