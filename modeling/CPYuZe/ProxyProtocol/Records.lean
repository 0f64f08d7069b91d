import CPYuZe.ProxyProtocol.Header

/-!
# The records of a header

`pp_info_add_*` append a record each to the array of a `pp_info_t`, and `pp_info_get_*` look for
the first record of a type.  The record about TLS is itself a list of records behind five bytes.

`PpInfo.add` is one call of a function of the first kind, whether it succeeds or not.
-/

namespace ProxyProtocol

/-- A value whose length is a `uint16_t`. -/
structure Value where
  bytes : List UInt8
  length_lt : bytes.length < 65536

def Value.tlv (type : UInt8) (v : Value) : Tlv := ⟨type, v.bytes, v.length_lt⟩

/-! ## `pp_info_add_ssl` -/

/-- The strings that `pp_info_add_ssl` is given; any of them may be null. -/
structure SslText where
  version : Option (List UInt8)
  cipher : Option (List UInt8)
  sigAlg : Option (List UInt8)
  keyAlg : Option (List UInt8)
  cn : Option (List UInt8)

/-- What `pp_info_add_subtype_ssl` writes. -/
def subtypeSsl (subtype : UInt8) (value : Option (List UInt8)) : List UInt8 :=
  match value with
  | none => []
  | some value =>
    if value = [] then []
    else subtype :: UInt8.ofNat (value.length / 256) :: UInt8.ofNat value.length :: value

/-- `strlen` of a string that may be null. -/
def lengthOf (value : Option (List UInt8)) : ℕ := (value.getD []).length

def SslText.length (t : SslText) : ℕ :=
  5 + (3 + lengthOf t.version) + (3 + lengthOf t.cipher) + (3 + lengthOf t.sigAlg) +
    (3 + lengthOf t.keyAlg) + (3 + lengthOf t.cn)

def SslInfo.client (ssl : SslInfo) : UInt8 :=
  ssl.ssl ||| (ssl.certInConnection <<< 1) ||| (ssl.certInConnection <<< 2)

def SslInfo.verify (ssl : SslInfo) : BitVec 32 := if ssl.certVerified = 0 then 1 else 0

/-- What is written to the memory for the value. -/
def sslWritten (host : ByteOrder) (ssl : SslInfo) (t : SslText) : List UInt8 :=
  ssl.client :: hostBytes host ssl.verify ++
    (subtypeSsl pp2SubtypeSslVersion t.version ++ subtypeSsl pp2SubtypeSslCipher t.cipher ++
      subtypeSsl pp2SubtypeSslSigAlg t.sigAlg ++ subtypeSsl pp2SubtypeSslKeyAlg t.keyAlg ++
      subtypeSsl pp2SubtypeSslCn t.cn)

/-- The whole value: behind what is written stands what the memory held before. -/
def sslValue (fresh : ℕ → UInt8) (host : ByteOrder) (ssl : SslInfo) (t : SslText) : List UInt8 :=
  sslWritten host ssl t ++
    ((List.range t.length).drop (sslWritten host ssl t).length).map fresh

lemma length_subtypeSsl_le (subtype : UInt8) (value : Option (List UInt8)) :
    (subtypeSsl subtype value).length ≤ 3 + lengthOf value := by
  unfold subtypeSsl lengthOf
  cases value with
  | none => exact Nat.zero_le _
  | some value =>
    dsimp only
    split_ifs
    · exact Nat.zero_le _
    · simp only [List.length_cons, Option.getD_some]
      omega

lemma length_sslWritten_le (host : ByteOrder) (ssl : SslInfo) (t : SslText) :
    (sslWritten host ssl t).length ≤ t.length := by
  have hversion := length_subtypeSsl_le pp2SubtypeSslVersion t.version
  have hcipher := length_subtypeSsl_le pp2SubtypeSslCipher t.cipher
  have hsigAlg := length_subtypeSsl_le pp2SubtypeSslSigAlg t.sigAlg
  have hkeyAlg := length_subtypeSsl_le pp2SubtypeSslKeyAlg t.keyAlg
  have hcn := length_subtypeSsl_le pp2SubtypeSslCn t.cn
  unfold sslWritten SslText.length
  simp only [List.length_append, List.length_cons, length_hostBytes]
  omega

lemma length_sslValue (fresh : ℕ → UInt8) (host : ByteOrder) (ssl : SslInfo) (t : SslText) :
    (sslValue fresh host ssl t).length = t.length := by
  have hle := length_sslWritten_le host ssl t
  rw [sslValue, List.length_append, List.length_map, List.length_drop, List.length_range]
  omega

/-! ## Adding -/

def ppInfoAddAlpn (info : PpInfo) (alpn : Value) : PpInfo := info.append (alpn.tlv pp2TypeAlpn)

def ppInfoAddAuthority (info : PpInfo) (hostName : Value) : PpInfo :=
  info.append (hostName.tlv pp2TypeAuthority)

/-- There is no result if the function returns 0, as it does below too. -/
def ppInfoAddUniqueId (info : PpInfo) (uniqueId : Value) : Option PpInfo :=
  if 128 < uniqueId.bytes.length then none
  else some (info.append (uniqueId.tlv pp2TypeUniqueId))

def ppInfoAddSsl (fresh : ℕ → UInt8) (host : ByteOrder) (info : PpInfo) (t : SslText) :
    Option PpInfo :=
  if h : 65535 < t.length then none
  else some (info.append ⟨pp2TypeSsl, sslValue fresh host info.pp2SslInfo t,
    (length_sslValue _ _ _ t).trans_lt (Nat.lt_succ_of_le (not_lt.1 h))⟩)

/-- The length of the string is cut to sixteen bits. -/
def ppInfoAddNetns (info : PpInfo) (netns : List UInt8) : PpInfo :=
  info.append ⟨pp2TypeNetns, netns.take (netns.length % 65536),
    (List.length_take_le _ _).trans_lt (Nat.mod_lt _ (by norm_num))⟩

/-- The length of the value is cut to sixteen bits, and all of the string is copied. -/
def ppInfoAddAwsVpceId (info : PpInfo) (vpceId : List UInt8) : Outcome Fault PpInfo :=
  if h : 1 + vpceId.length ≤ (1 + vpceId.length) % 65536 then
    .returned (info.append ⟨pp2TypeAws, pp2SubtypeAwsVpceId :: vpceId, by
      have := Nat.mod_lt (1 + vpceId.length) (show 0 < 65536 by norm_num)
      rw [List.length_cons]
      omega⟩)
  else .faulted .outOfBounds

def ppInfoAddAzureLinkid (host : ByteOrder) (info : PpInfo) (linkid : BitVec 32) : PpInfo :=
  info.append ⟨pp2TypeAzure, pp2SubtypeAzurePrivateendpointLinkid :: hostBytes host linkid, by
    rw [List.length_cons, length_hostBytes]
    norm_num⟩

/-! ## Looking up -/

/-- `pp_info_get_tlv_value`: the bytes from the pointer it returns to the end of the record, if it
does not return null, and the number it leaves in `*length`. -/
def ppInfoGetTlvValue (info : PpInfo) (type subtype : UInt8) :
    Outcome Fault (Option (List UInt8) × ℕ) :=
  match info.tlvs.find? (fun tlv => tlv.type = type) with
  | none => .returned (none, 0)
  | some tlv =>
    if subtype = 0 then .returned (some tlv.value, tlv.value.length)
    else
      match tlv.value with
      | [] => .faulted .outOfBounds
      | b :: rest =>
        if b = subtype then .returned (some rest, rest.length)
        else .returned (none, tlv.value.length)

def ppInfoGetAlpn (info : PpInfo) := ppInfoGetTlvValue info pp2TypeAlpn 0

def ppInfoGetAuthority (info : PpInfo) := ppInfoGetTlvValue info pp2TypeAuthority 0

def ppInfoGetCrc32c (info : PpInfo) := ppInfoGetTlvValue info pp2TypeCrc32c 0

def ppInfoGetUniqueId (info : PpInfo) := ppInfoGetTlvValue info pp2TypeUniqueId 0

def ppInfoGetSslVersion (info : PpInfo) := ppInfoGetTlvValue info pp2SubtypeSslVersion 0

def ppInfoGetSslCn (info : PpInfo) := ppInfoGetTlvValue info pp2SubtypeSslCn 0

def ppInfoGetSslCipher (info : PpInfo) := ppInfoGetTlvValue info pp2SubtypeSslCipher 0

def ppInfoGetSslSigAlg (info : PpInfo) := ppInfoGetTlvValue info pp2SubtypeSslSigAlg 0

def ppInfoGetSslKeyAlg (info : PpInfo) := ppInfoGetTlvValue info pp2SubtypeSslKeyAlg 0

def ppInfoGetNetns (info : PpInfo) := ppInfoGetTlvValue info pp2TypeNetns 0

def ppInfoGetAwsVpceId (info : PpInfo) := ppInfoGetTlvValue info pp2TypeAws pp2SubtypeAwsVpceId

def ppInfoGetAzureLinkid (info : PpInfo) :=
  ppInfoGetTlvValue info pp2TypeAzure pp2SubtypeAzurePrivateendpointLinkid

/-- `pp_info_clear`. -/
def ppInfoClear (_info : PpInfo) : PpInfo := .zero

/-! ## Any number of calls -/

/-- A call of `pp_info_add_*` with its arguments. -/
inductive Entry
  | alpn (alpn : Value)
  | authority (hostName : Value)
  | uniqueId (uniqueId : Value)
  | ssl (text : SslText)
  | netns (netns : List UInt8)
  | awsVpceId (vpceId : List UInt8)
  | azureLinkid (linkid : BitVec 32)

namespace PpInfo

variable {fresh : ℕ → UInt8} {host : ByteOrder} {info info' : PpInfo}

/-- What a call leaves, whether it succeeds or not. -/
def add (fresh : ℕ → UInt8) (host : ByteOrder) (info : PpInfo) : Entry → Outcome Fault PpInfo
  | .alpn alpn => .returned (ppInfoAddAlpn info alpn)
  | .authority hostName => .returned (ppInfoAddAuthority info hostName)
  | .uniqueId uniqueId => .returned ((ppInfoAddUniqueId info uniqueId).getD info)
  | .ssl text => .returned ((ppInfoAddSsl fresh host info text).getD info)
  | .netns netns => .returned (ppInfoAddNetns info netns)
  | .awsVpceId vpceId => ppInfoAddAwsVpceId info vpceId
  | .azureLinkid linkid => .returned (ppInfoAddAzureLinkid host info linkid)

/-- The array with these records behind the others. -/
def appendAll (info : PpInfo) (tlvs : List Tlv) : PpInfo := tlvs.foldl append info

end PpInfo

end ProxyProtocol
