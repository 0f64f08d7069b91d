import CPYuZe.AsioServer.Session
import CPYuZe.Library.CScan
import CPYuZe.Library.Inet6
import CPYuZe.ProxyProtocol.Parse

/-!
# Parsing a header of the first version

`pp1_parse_hdr` copies up to 108 bytes into a block and looks for the end of the line in it, and
then for one space after the other.  The block has a zero at its end only if there were fewer bytes
than 108; the search functions run past its end if they do not find what they look for in a block
without a zero.  Each of the ports is copied into an array of six characters.

The parser does not return the negative of the error if an address is wrong, but the error itself.
-/

namespace ProxyProtocol

open Inet AsioServer

/-- What the parser returns, and what it leaves in `pp_info`. -/
abbrev LineResult := ℤ × PpInfo

/-- A search that runs past the end of the array. -/
def orFault {α : Type} : Option α → Outcome Fault α
  | some a => .returned a
  | none => .faulted .outOfBounds

/-- Exactly one space. -/
def afterSpace (text : List UInt8) (info : PpInfo)
    (next : List UInt8 → Outcome Fault LineResult) : Outcome Fault LineResult :=
  match text with
  | [] => .faulted .outOfBounds
  | ch :: rest => if ch ≠ 32 then .returned (-Err.pp1Space.code, info) else next rest

/-- An address up to the next space; `store` puts it into `pp_info`. -/
def takeAddr (pton : List UInt8 → Option (List UInt8)) (e : Err)
    (store : PpInfo → AddrText → PpInfo) (text : List UInt8) (info : PpInfo)
    (next : PpInfo → List UInt8 → Outcome Fault LineResult) : Outcome Fault LineResult :=
  orFault (strchr 32 text) >>= fun addressEnd =>
    match addressEnd with
    | none => .returned (e.code, info)
    | some n =>
      (AddrText.ofText (text.take n)).text >>= fun address =>
        if pton address = none then .returned (e.code, store info (.ofText (text.take n)))
        else next (store info (.ofText (text.take n))) (text.drop n)

/-- The characters of a port in their array. -/
def portStr (text : List UInt8) : Outcome Fault (List UInt8) :=
  if text.length ≤ 6 then .returned (text ++ List.replicate (6 - text.length) 0)
  else .faulted .outOfBounds

/-- `parse_port`. -/
def parsePort (value : List UInt8) : Outcome Fault (Option UInt16) :=
  orFault (strtoul value) >>= fun port =>
    if port = 0 ∨ 65535 < port then .returned none else .returned (some (UInt16.ofNat port))

/-- A port up to the next `stop`. -/
def takePort (stop : UInt8) (e : Err) (store : PpInfo → UInt16 → PpInfo) (text : List UInt8)
    (info : PpInfo) (next : PpInfo → List UInt8 → Outcome Fault LineResult) :
    Outcome Fault LineResult :=
  orFault (strchr stop text) >>= fun portEnd =>
    match portEnd with
    | none => .returned (-e.code, info)
    | some n =>
      portStr (text.take n) >>= fun str =>
        parsePort str >>= fun port =>
          match port with
          | none => .returned (-e.code, info)
          | some port => next (store info port) (text.drop n)

/-- The CRLF sequence. -/
def takeCrlf (hdrLen : ℤ) (info : PpInfo) : List UInt8 → Outcome Fault LineResult
  | [] => .faulted .outOfBounds
  | [ch] => if ch ≠ 13 then .returned (-Err.pp1Crlf.code, info) else .faulted .outOfBounds
  | ch :: ch' :: _ =>
    if ch ≠ 13 ∨ ch' ≠ 10 then .returned (-Err.pp1Crlf.code, info) else .returned (hdrLen, info)

/-- What stands behind `TCP4` or `TCP6`. -/
def takeTcp (pton : List UInt8 → Option (List UInt8)) (srcErr dstErr : Err) (hdrLen : ℤ)
    (text : List UInt8) (info : PpInfo) : Outcome Fault LineResult :=
  afterSpace text info fun text =>
    takeAddr pton srcErr (fun info addr => { info with srcAddr := addr }) text info
      fun info text =>
        afterSpace text info fun text =>
          takeAddr pton dstErr (fun info addr => { info with dstAddr := addr }) text info
            fun info text =>
              afterSpace text info fun text =>
                takePort 32 .pp1SrcPort (fun info port => { info with srcPort := port }) text info
                  fun info text =>
                    afterSpace text info fun text =>
                      takePort 13 .pp1DstPort (fun info port => { info with dstPort := port })
                        text info fun info text => takeCrlf hdrLen info text

def unknown : List UInt8 := ascii "UNKNOWN"

def tcp4 : List UInt8 := ascii "TCP4"

def tcp6 : List UInt8 := ascii "TCP6"

/-- What stands behind `PROXY` and a space. -/
def takeFamily (hdrLen : ℤ) (text : List UInt8) (info : PpInfo) : Outcome Fault LineResult :=
  orFault (strchr 32 text) >>= fun inetFamily =>
    match inetFamily with
    | none =>
      if hdrLen = 15 ∨ unknown <+: text then
        .returned (hdrLen, { info with addressFamily := addrFamilyUnspec,
                                       transportProtocol := transportProtocolUnspec })
      else .returned (-Err.pp1TransportFamily.code, info)
    | some _ =>
      if tcp4 <+: text then
        takeTcp inetPton4 .pp1Ipv4SrcIp .pp1Ipv4DstIp hdrLen (text.drop 4)
          { info with addressFamily := addrFamilyInet,
                      transportProtocol := transportProtocolStream }
      else if tcp6 <+: text then
        takeTcp inetPton6 .pp1Ipv6SrcIp .pp1Ipv6DstIp hdrLen (text.drop 4)
          { info with addressFamily := addrFamilyInet6,
                      transportProtocol := transportProtocolStream }
      else if unknown <+: text then
        .returned (hdrLen, { info with addressFamily := addrFamilyUnspec,
                                       transportProtocol := transportProtocolUnspec })
      else .returned (-Err.pp1TransportFamily.code, info)

/-- The block: what is copied, and zeros behind it. -/
def blockOf (bytes : List UInt8) : List UInt8 := bytes ++ List.replicate (108 - bytes.length) 0

/-- `"\r\n"`. -/
def crlf : List UInt8 := [13, 10]

def parseBlock (block : List UInt8) (info : PpInfo) : Outcome Fault LineResult :=
  orFault (strstr crlf block) >>= fun blockEnd =>
    match blockEnd with
    | none => .returned (-Err.pp1Crlf.code, info)
    | some i =>
      if ¬ pp1Sig <+: block then .returned (-Err.pp1Proxy.code, info)
      else afterSpace (block.drop 5) info fun text => takeFamily (i + 2) text info

def pp1ParseHdr (buffer : List UInt8) (bufferLength : ℕ) (info : PpInfo) :
    Outcome Fault LineResult :=
  readBytes buffer 0 (min bufferLength 108) >>= fun bytes => parseBlock (blockOf bytes) info

/-- `pp_parse_hdr`. -/
def ppParseHdr (host : ByteOrder) (budget : ℕ) (buffer : List UInt8) (bufferLength : ℕ) :
    Outcome Fault Parsed :=
  if 16 ≤ bufferLength ∧ pp2Sig <+: buffer then
    pp2ParseHdr host budget buffer bufferLength .zero
  else if 8 ≤ bufferLength ∧ pp1Sig <+: buffer then
    pp1ParseHdr buffer bufferLength .zero >>= fun (rc, info) => .returned ⟨rc, info, buffer⟩
  else .returned ⟨0, .zero, buffer⟩

end ProxyProtocol
