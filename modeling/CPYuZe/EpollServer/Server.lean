import CPYuZe.Library.CString
import CPYuZe.Library.Outcome

/-!
# The epoll server

`HandleEpollUsing` is told once of every descriptor that something has happened on it, so that it
has to take everything there is: `OnEpAccept` accepts connections until `accept` has none left, and
the loop over `read` prints what it reads until there is nothing more to read.

What a call of the system answers is an argument of the model.  What the program does is a list of
events.  `fmt` is not a part of the repository: what it makes of a format string without arguments
is the parameter `format`, which has no value where `fmt` throws, and `Formatted` says what its
documentation promises of it.
-/

namespace EpollServer

/-- `READ_BUF_LEN`. -/
def readBufLen : ℕ := 256

/-- `O_NONBLOCK`. -/
def oNonblock : ℕ := 2048

/-- The error numbers the program tells apart. -/
inductive Errno
  | EAGAIN
  /-- Any other error. -/
  | other (n : ℕ)
  deriving DecidableEq

inductive Fault
  /-- `strlen` runs past the end of the buffer. -/
  | outOfBounds
  /-- `fmt` throws a `format_error`, which nobody catches. -/
  | formatError
  deriving DecidableEq

/-- What the program does. -/
inductive Event
  | accepted (fd : ℕ)
  /-- `fcntl(sock, F_SETFL, opts)`. -/
  | setfl (sock opts : ℕ)
  /-- `epoll_ctl(epfd, EPOLL_CTL_ADD, fd, &ev)`, with `EPOLLIN | EPOLLET` for the events. -/
  | registered (fd : ℕ)
  | closed (fd : ℕ)
  /-- `perror`, which prints the error behind its text. -/
  | perror (text : String) (e : Errno)
  /-- The line about a new connection. -/
  | newConnection (host port : List UInt8)
  /-- The number of the thread, in brackets. -/
  | threadId
  /-- What `fmt` has made of the bytes that have been read. -/
  | printed (text : List UInt8)
  /-- A line of hyphens. -/
  | delim
  | printf (text : String)
  deriving DecidableEq

/-! ## Accepting -/

/-- A connection, and what the calls about it answer. -/
structure Connection where
  fd : ℕ
  /-- The host and the port that `getnameinfo` finds. -/
  name : Option (List UInt8 × List UInt8)
  /-- What `fcntl` answers to `F_GETFL`. -/
  getfl : Except Errno ℕ
  /-- What `fcntl` answers to `F_SETFL`. -/
  setfl : Except Errno Unit
  epollCtl : Except Errno Unit

/-- What `accept` answers while it does not say that there is no connection. -/
inductive Attempt
  | connection (c : Connection)
  | fails (n : ℕ)

/-- `SetNonblocking`: what it does, and whether it succeeds. -/
def setNonblocking (sock : ℕ) (getfl : Except Errno ℕ) (setfl : Except Errno Unit) :
    List Event × Bool :=
  match getfl with
  | .error e => ([.perror "fcntl(sock,GETFL) failed" e], false)
  | .ok opts =>
    match setfl with
    | .error e => ([.perror "fcntl(sock,SETFL,opts) failed" e], false)
    | .ok _ => ([.setfl sock (opts ||| oNonblock)], true)

/-- The line about a connection, if `getnameinfo` succeeds. -/
def Connection.announce (c : Connection) : List Event :=
  match c.name with
  | some (host, port) => [.newConnection host port]
  | none => []

/-- What `OnEpAccept` does with a connection, and whether it goes on behind it. -/
def acceptTurn (c : Connection) : List Event × Bool :=
  match setNonblocking c.fd c.getfl c.setfl with
  | (events, false) => (.accepted c.fd :: (c.announce ++ events), false)
  | (events, true) =>
    match c.epollCtl with
    | .error e => (.accepted c.fd :: (c.announce ++ events ++ [.perror "epoll_ctl" e]), false)
    | .ok _ => (.accepted c.fd :: (c.announce ++ events ++ [.registered c.fd]), true)

/-- `OnEpAccept`, with what `accept` answers before it says that there is no connection left. -/
def onEpAccept : List Attempt → List Event
  | [] => [.perror "Accept" .EAGAIN]
  | .fails n :: _ => [.perror "Accept" (.other n)]
  | .connection c :: backlog =>
    match acceptTurn c with
    | (events, true) => events ++ onEpAccept backlog
    | (events, false) => events

/-! ## Reading -/

/-- What a call of `read` that returns a positive number has stored. -/
structure Chunk where
  bytes : List UInt8
  nonempty : bytes ≠ []
  fits : bytes.length ≤ readBufLen

/-- The answer of `read` with which the loop ends. -/
inductive Ending
  /-- `read` returns 0. -/
  | zero
  /-- It returns -1. -/
  | failed (e : Errno)
  deriving DecidableEq

/-- The buffer, which is cleared before every call of `read`. -/
def Chunk.buf (chunk : Chunk) : List UInt8 :=
  chunk.bytes ++ List.replicate (readBufLen - chunk.bytes.length) 0

/-- `fmt::print(buf)`, with no more arguments.  It takes the buffer for a C string. -/
def fmtPrint (format : List UInt8 → Option (List UInt8)) (buf : List UInt8) :
    Outcome Fault (List UInt8) :=
  if 0 ∈ buf then
    match format (cstr buf) with
    | some text => .returned text
    | none => .faulted .formatError
  else .faulted .outOfBounds

/-- The loop over `read`, and the value of `done` behind it. -/
def readLoop (format : List UInt8 → Option (List UInt8)) :
    List Chunk → Ending → Outcome Fault (List Event × Bool)
  | [], .failed e => .returned (if e ≠ .EAGAIN then [.perror "Read data" e] else [], true)
  | [], .zero => .returned ([.printf "(0 == result_len; break\n"], true)
  | chunk :: chunks, ending => do
    let text ← fmtPrint format chunk.buf
    let (events, done) ← readLoop format chunks ending
    return ([.threadId, .printed text, .delim] ++ events, done)

/-- What `HandleEpollUsing` does about a descriptor that can be read. -/
def handleReadable (format : List UInt8 → Option (List UInt8)) (fd : ℕ) (chunks : List Chunk)
    (ending : Ending) : Outcome Fault (List Event) := do
  let (events, done) ← readLoop format chunks ending
  return if done then events else events ++ [.printf "Close connection\n", .closed fd]

/-- The opening and the closing brace. -/
def IsBrace (c : UInt8) : Prop := c = 123 ∨ c = 125

instance (c : UInt8) : Decidable (IsBrace c) :=
  inferInstanceAs (Decidable (_ ∨ _))

/-- What `fmt` makes of a format string without arguments.  A brace stands for itself if it stands
there twice; `fmt` throws if there is a replacement field, which has no argument, or a brace that
stands alone. -/
inductive Formatted : List UInt8 → List UInt8 → Prop
  | nil : Formatted [] []
  | literal {c text out} (hc : ¬ IsBrace c) (h : Formatted text out) :
    Formatted (c :: text) (c :: out)
  | escaped {c text out} (hc : IsBrace c) (h : Formatted text out) :
    Formatted (c :: c :: text) (c :: out)

end EpollServer
