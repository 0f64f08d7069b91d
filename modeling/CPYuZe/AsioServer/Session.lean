import CPYuZe.Library.CString
import CPYuZe.Library.Outcome

/-!
# A session of the asio server

A `Session` reads into a buffer of 1024 bytes that it never clears, and sends back what it has
read.  `OnRead` takes the buffer for a C string: it gives `strlen(buffer_)` to the parser of the
PROXY protocol as the number of bytes, and prints the buffer up to the first zero.  The parser is
called once, with the first read; after that `client_ip_` is not empty any more.

`pp_parse_hdr` looks at the signature and calls one of two parsers, which are parameters.  What it
means that bytes are a complete header is said in terms of its result (`CompleteHeader`).

A step of a session is a read that succeeds, `OnRead` with what has been read, and the write that
follows it; an error ends the session.
-/

namespace AsioServer

/-- `BUF_SIZE`. -/
def bufSize : ℕ := 1024

inductive Fault
  /-- A string function runs past the end of the array it is given. -/
  | outOfBounds
  deriving DecidableEq

/-! ## The parser -/

/-- What the session looks at in `pp_info_t`; an address is the C string in its array. -/
structure PpInfo where
  srcAddr : List UInt8
  dstAddr : List UInt8
  srcPort : UInt16
  dstPort : UInt16

/-- What a parser returns, and what it leaves in the bytes it was given. -/
structure Parsed where
  rc : ℤ
  info : PpInfo
  buffer : List UInt8

/-- The parsers of the two versions of the header.  The second one writes into the header when it
checks its checksum. -/
structure Parsers where
  pp1ParseHdr : List UInt8 → ℤ × PpInfo
  pp2ParseHdr : List UInt8 → Parsed

/-- `PP1_SIG`. -/
def pp1Sig : List UInt8 := ascii "PROXY"

/-- `PP2_SIG`. -/
def pp2Sig : List UInt8 :=
  [0x0D, 0x0A, 0x0D, 0x0A, 0x00, 0x0D, 0x0A, 0x51, 0x55, 0x49, 0x54, 0x0A]

/-- `pp_parse_hdr`, with `buffer` the bytes from the pointer up to the length it is given. -/
def ppParseHdr (parsers : Parsers) (buffer : List UInt8) : Parsed :=
  if 16 ≤ buffer.length ∧ pp2Sig <+: buffer then parsers.pp2ParseHdr buffer
  else if 8 ≤ buffer.length ∧ pp1Sig <+: buffer then
    ⟨(parsers.pp1ParseHdr buffer).1, (parsers.pp1ParseHdr buffer).2, buffer⟩
  else ⟨0, ⟨[], [], 0, 0⟩, buffer⟩

/-- The parser takes `header` for a whole header with the source address `srcAddr`, whatever
follows it, and does not accept less than all of it. -/
structure CompleteHeader (parsers : Parsers) (header srcAddr : List UInt8) : Prop where
  nonempty : header ≠ []
  whole : ∀ rest, (ppParseHdr parsers (header ++ rest)).rc = header.length ∧
    (ppParseHdr parsers (header ++ rest)).info.srcAddr = srcAddr
  part : ∀ shorter, shorter <+: header → shorter ≠ header → (ppParseHdr parsers shorter).rc ≤ 0

/-! ## The session -/

/-- What boost reports. -/
inductive ErrorCode
  | eof
  | operationAborted
  | other

/-- What the session prints. -/
inductive Output
  | onRead
  | onWrite
  | notProxyHeader
  | parseFailed (rc : ℤ)
  | proxyHeader (rc : ℤ) (info : PpInfo)
  | recvData (data : List UInt8)
  | readError (ec : ErrorCode)

/-- The data of a `"Recv data : "` line. -/
def Output.data? : Output → Option (List UInt8)
  | .recvData data => some data
  | .onRead | .onWrite | .notProxyHeader | .parseFailed _ | .proxyHeader _ _ | .readError _ => none

structure Session where
  buffer : List UInt8
  clientIp : List UInt8
  output : List Output
  /-- What it has sent. -/
  sent : List UInt8
  /-- What `pp_parse_hdr` has been given to look at. -/
  shown : List (List UInt8)

def strlen (bytes : List UInt8) : Outcome Fault ℕ :=
  if 0 ∈ bytes then .returned (cstr bytes).length else .faulted .outOfBounds

/-- `client_ip_` when there is no address in the header. -/
def someIp : List UInt8 := ascii "some ip"

namespace Session

def init : Session where
  buffer := List.replicate bufSize 0
  clientIp := []
  output := []
  sent := []
  shown := []

def print (s : Session) (line : Output) : Session := { s with output := s.output ++ [line] }

/-- The data of the reads that have been logged. -/
def logged (s : Session) : List (List UInt8) := s.output.filterMap Output.data?

/-- `async_read_some` has put `data` into the buffer. -/
def doRead (s : Session) (data : List UInt8) : Session :=
  { s with buffer := data ++ s.buffer.drop data.length }

def doWrite (s : Session) (length : ℕ) : Session :=
  { s with sent := s.sent ++ s.buffer.take length }

/-- What `ParseClientIp` does with the result of the parser. -/
def takeResult (s : Session) (parsed : Parsed) : Session :=
  if parsed.rc = 0 then s.print .notProxyHeader
  else if parsed.rc < 0 then s.print (.parseFailed parsed.rc)
  else { s.print (.proxyHeader parsed.rc parsed.info) with clientIp := parsed.info.srcAddr }

def parseClientIp (parsers : Parsers) (s : Session) (bufferLength : ℕ) : Session :=
  if s.clientIp ≠ [] then s
  else
    { s with
      buffer := (ppParseHdr parsers (s.buffer.take bufferLength)).buffer ++
        s.buffer.drop bufferLength
      shown := s.shown ++ [s.buffer.take bufferLength] }.takeResult
      (ppParseHdr parsers (s.buffer.take bufferLength))

/-- `if(client_ip_.empty()) client_ip_ = "some ip"`. -/
def orSomeIp (s : Session) : Session :=
  if s.clientIp = [] then { s with clientIp := someIp } else s

def onRead (parsers : Parsers) (s : Session) (ec : Option ErrorCode) (length : ℕ) :
    Outcome Fault Session :=
  match ec with
  | some ec => .returned ((s.print .onRead).print (.readError ec))
  | none =>
    strlen s.buffer >>= fun n =>
      if s.clientIp = [] then
        .returned ((((s.print .onRead).parseClientIp parsers n).orSomeIp).doWrite length)
      else
        .returned (((s.print .onRead).print (.recvData (s.buffer.take n))).doWrite length)

/-- `OnWrite`; if nothing went wrong, the next read comes. -/
def onWrite (s : Session) : Session := s.print .onWrite

/-- A read of `data`, and the write behind it. -/
def receive (parsers : Parsers) (s : Session) (data : List UInt8) : Outcome Fault Session :=
  (s.doRead data).onRead parsers none data.length >>= fun s => .returned s.onWrite

end Session

end AsioServer
