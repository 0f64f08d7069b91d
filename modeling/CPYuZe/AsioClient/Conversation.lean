import CPYuZe.AsioServer.ProxyHeader
import CPYuZe.Library.Transition

/-!
# A client and its session

A `talk_to_svr` writes a request, reads an answer and goes on to the next request.  It asks the
socket for one byte at a time until there is a newline in its buffer or the buffer is full, and it
looks at the number of bytes neither of a read nor of a write: `write_some` may have written less
than it was given.  At the other end of the connection is a session of the asio server.

The state of a `System` is the client, the session, and the bytes that are under way in the two
directions.  A step is a write of the client, a read of the session with the write behind it, of as
many bytes as have arrived, or a byte that the client reads; they come in any order.

Every byte comes back, once and in its place, and the answers of the client are what it has written
itself, cut where there is a newline (`answers_of_reaches`).  There are only so many steps from one
answer to the next (`unanswered_le`).
-/

namespace AsioClient

open AsioServer (Session bufSize)
open ProxyProtocol (ByteOrder)

/-- `max_msg`. -/
def maxMsg : ℕ := 1024

lemma maxMsg_pos : 0 < maxMsg := by decide

/-- `'\n'`. -/
def newline : UInt8 := 10

/-! ## The client -/

/-- Where `loop` is: before a write, or in `read_answer` with these bytes in `buff_`. -/
inductive Pc
  | write
  | read (buff : List UInt8)

structure TalkToSvr where
  username : List UInt8
  pc : Pc
  /-- What each `read_answer` has left in `buff_`. -/
  answers : List (List UInt8)

/-- How many bytes to read next. -/
def readComplete (err : Bool) (buff : List UInt8) : ℕ :=
  if err then 0 else if newline ∈ buff then 0 else 1

/-- `boost::asio::read` returns: the condition says so, or there is no room left. -/
def Answered (buff : List UInt8) : Prop := readComplete false buff = 0 ∨ maxMsg ≤ buff.length

instance (buff : List UInt8) : Decidable (Answered buff) := inferInstanceAs (Decidable (_ ∨ _))

/-- What `loop` writes before an answer. -/
def request (username : List UInt8) : ℕ → List UInt8
  | 0 => ascii "login " ++ username ++ [newline]
  | _ + 1 => ascii "ping" ++ [newline]

namespace TalkToSvr

def init (username : List UInt8) : TalkToSvr := ⟨username, .write, []⟩

def next (c : TalkToSvr) : List UInt8 := request c.username c.answers.length

/-- Another byte is read. -/
def readByte (c : TalkToSvr) (buff : List UInt8) (b : UInt8) : TalkToSvr :=
  if Answered (buff ++ [b]) then { c with pc := .write, answers := c.answers ++ [buff ++ [b]] }
  else { c with pc := .read (buff ++ [b]) }

lemma readByte_of_answered {c : TalkToSvr} {buff : List UInt8} {b : UInt8}
    (h : Answered (buff ++ [b])) :
    c.readByte buff b = { c with pc := .write, answers := c.answers ++ [buff ++ [b]] } :=
  if_pos h

lemma readByte_of_not_answered {c : TalkToSvr} {buff : List UInt8} {b : UInt8}
    (h : ¬ Answered (buff ++ [b])) : c.readByte buff b = { c with pc := .read (buff ++ [b]) } :=
  if_neg h

lemma answers_readByte_of_answered {c : TalkToSvr} {buff : List UInt8} {b : UInt8}
    (h : Answered (buff ++ [b])) : (c.readByte buff b).answers = c.answers ++ [buff ++ [b]] := by
  rw [readByte_of_answered h]

lemma answers_readByte_of_not_answered {c : TalkToSvr} {buff : List UInt8} {b : UInt8}
    (h : ¬ Answered (buff ++ [b])) : (c.readByte buff b).answers = c.answers := by
  rw [readByte_of_not_answered h]

/-- The bytes in `buff_`, as far as they belong to the next answer. -/
def buff (c : TalkToSvr) : List UInt8 :=
  match c.pc with
  | .write => []
  | .read buff => buff

lemma buff_of_write {c : TalkToSvr} (h : c.pc = .write) : c.buff = [] := by rw [TalkToSvr.buff, h]

lemma buff_of_read {c : TalkToSvr} {buff : List UInt8} (h : c.pc = .read buff) :
    c.buff = buff := by
  rw [TalkToSvr.buff, h]

end TalkToSvr

lemma answered_iff {buff : List UInt8} :
    Answered buff ↔ newline ∈ buff ∨ maxMsg ≤ buff.length := by
  unfold Answered readComplete
  rw [if_neg Bool.false_ne_true]
  refine or_congr ?_ Iff.rfl
  split_ifs with hmem
  · exact iff_of_true rfl hmem
  · exact iff_of_false (fun h => nomatch h) hmem

/-! ## The connection -/

structure System where
  client : TalkToSvr
  /-- All that the client has written. -/
  written : List UInt8
  /-- Written by the client, and not read by the session. -/
  toServer : List UInt8
  session : Session
  /-- Sent by the session, and not read by the client. -/
  toClient : List UInt8

namespace System

def init (username : List UInt8) : System := ⟨.init username, [], [], .init, []⟩

def write (s : System) (n : ℕ) : System :=
  { s with
    client := { s.client with pc := .read [] }
    written := s.written ++ s.client.next.take n
    toServer := s.toServer ++ s.client.next.take n }

/-- The session has read up to `rest`. -/
def serve (s : System) (rest : List UInt8) (session : Session) : System :=
  { s with
    toServer := rest
    session := session
    toClient := s.toClient ++ session.sent.drop s.session.sent.length }

def readByte (s : System) (buff : List UInt8) (b : UInt8) (rest : List UInt8) : System :=
  { s with client := s.client.readByte buff b, toClient := rest }

end System

/-- `async_read_some` can bring these bytes. -/
structure Arrives (s : System) (data rest : List UInt8) : Prop where
  split : s.toServer = data ++ rest
  nonempty : data ≠ []
  room : data.length ≤ bufSize

inductive Step (host : ByteOrder) (budget : ℕ) : System → System → Prop
  | write {s : System} {n : ℕ} (hpc : s.client.pc = .write) (hpos : 0 < n)
      (hle : n ≤ s.client.next.length) : Step host budget s (s.write n)
  | serve {s : System} {data rest : List UInt8} {session : Session} (harrives : Arrives s data rest)
      (hreceive : AsioServer.Proxied.receive host budget s.session data = .returned session) :
      Step host budget s (s.serve rest session)
  | readByte {s : System} {buff : List UInt8} {b : UInt8} {rest : List UInt8}
      (hpc : s.client.pc = .read buff) (hbyte : s.toClient = b :: rest) :
      Step host budget s (s.readByte buff b rest)

/-- A line, or as much of it as there is room for. -/
structure Answer (answer : List UInt8) : Prop where
  ends : ∃ front b, answer = front ++ [b] ∧ newline ∉ front ∧
    (b = newline ∨ answer.length = maxMsg)
  length_le : answer.length ≤ maxMsg

variable {host : ByteOrder} {budget : ℕ} {username : List UInt8} {s s' : System}

/-! ## Bytes -/

/-- What a session has read it sends. -/
lemma serve_toClient {data rest : List UInt8} {session : Session}
    (hreceive : AsioServer.Proxied.receive host budget s.session data = .returned session) :
    (s.serve rest session).toClient = s.toClient ++ data := by
  have hsent := (AsioServer.Proxied.receive_spec hreceive).2.1
  show s.toClient ++ session.sent.drop s.session.sent.length = s.toClient ++ data
  rw [hsent, List.drop_left]

/-- Where all bytes are, and what is an answer. -/
structure Kept (s : System) : Prop where
  bytes : s.client.answers.flatten ++ s.client.buff ++ s.toClient ++ s.toServer = s.written
  answers : ∀ answer ∈ s.client.answers, Answer answer
  reading : newline ∉ s.client.buff ∧ s.client.buff.length < maxMsg

lemma Kept.step (h : Kept s) (hstep : Step host budget s s') : Kept s' := by
  cases hstep with
  | write hpc hpos hle =>
    refine ⟨?_, h.answers, List.not_mem_nil, maxMsg_pos⟩
    have hbytes := h.bytes
    rw [TalkToSvr.buff_of_write hpc] at hbytes
    show s.client.answers.flatten ++ [] ++ s.toClient ++ (s.toServer ++ _) = s.written ++ _
    rw [← List.append_assoc, hbytes]
  | @serve data rest session harrives hreceive =>
    refine ⟨?_, h.answers, h.reading⟩
    rw [serve_toClient hreceive]
    show s.client.answers.flatten ++ s.client.buff ++ (s.toClient ++ data) ++ rest = s.written
    rw [← h.bytes, harrives.split]
    simp only [List.append_assoc]
  | @readByte buff b rest hpc hbyte =>
    have hbuff : s.client.buff = buff := TalkToSvr.buff_of_read hpc
    obtain ⟨hfree, hlt⟩ := h.reading
    have hbytes := h.bytes
    rw [hbuff] at hfree hlt hbytes
    rw [hbyte] at hbytes
    have hlength : (buff ++ [b]).length = buff.length + 1 := List.length_append
    by_cases hdone : Answered (buff ++ [b])
    · have hclient : (s.readByte buff b rest).client =
          { s.client with pc := .write, answers := s.client.answers ++ [buff ++ [b]] } :=
        TalkToSvr.readByte_of_answered hdone
      refine ⟨?_, ?_, ?_⟩
      · rw [hclient]
        show (s.client.answers ++ [buff ++ [b]]).flatten ++ [] ++ rest ++ s.toServer = s.written
        rw [← hbytes, List.flatten_append, List.flatten_singleton]
        simp only [List.append_assoc, List.nil_append, List.cons_append]
      · rw [hclient]
        intro answer hanswer
        rcases List.mem_append.1 hanswer with hold | hnew
        · exact h.answers answer hold
        · obtain rfl := List.mem_singleton.1 hnew
          refine ⟨⟨buff, b, rfl, hfree, ?_⟩, by omega⟩
          rcases answered_iff.1 hdone with hmem | hfull
          · exact .inl (List.mem_singleton.1 ((List.mem_append.1 hmem).resolve_left hfree)).symm
          · exact .inr (by omega)
      · rw [hclient]
        exact ⟨List.not_mem_nil, maxMsg_pos⟩
    · have hclient : (s.readByte buff b rest).client =
          { s.client with pc := .read (buff ++ [b]) } :=
        TalkToSvr.readByte_of_not_answered hdone
      obtain ⟨hfree', hlt'⟩ := not_or.1 (mt answered_iff.2 hdone)
      refine ⟨?_, ?_, ?_⟩
      · rw [hclient]
        show s.client.answers.flatten ++ (buff ++ [b]) ++ rest ++ s.toServer = s.written
        rw [← hbytes]
        simp only [List.append_assoc, List.cons_append, List.nil_append]
      · rw [hclient]
        exact h.answers
      · rw [hclient]
        exact ⟨hfree', not_le.1 hlt'⟩

lemma kept_init (username : List UInt8) : Kept (.init username) :=
  ⟨rfl, fun _ h => absurd h List.not_mem_nil, List.not_mem_nil, maxMsg_pos⟩

/-- Whatever the order of the steps, and however much of its requests gets through: what the client
has taken for answers, what it has read of the next one, and what is under way to it and from it are
all that it has written, in order.  An answer ends with its first newline, or where there is no more
room. -/
theorem answers_of_reaches
    (h : Relation.ReflTransGen (Step host budget) (.init username) s) :
    s.client.answers.flatten ++ s.client.buff ++ s.toClient ++ s.toServer = s.written ∧
      (∀ answer ∈ s.client.answers, Answer answer) ∧
      newline ∉ s.client.buff ∧ s.client.buff.length < maxMsg := by
  have hkept : Kept s :=
    Transition.invariant Kept (kept_init username) (fun _ _ hs hstep => hs.step hstep) h
  exact ⟨hkept.bytes, hkept.answers, hkept.reading⟩

/-- Four bytes of the first request get through. -/
theorem answers_of_reaches_part : ∃ s : System, s.written = ascii "logi" ∧
    s.client.answers.flatten ++ s.client.buff ++ s.toClient ++ s.toServer = ascii "logi" := by
  have hstep : Step .little 0 (.init (ascii "devinbo"))
      ((System.init (ascii "devinbo")).write 4) := .write rfl (by decide) (by decide)
  exact ⟨_, rfl, (answers_of_reaches (.single hstep)).1⟩

/-! ## Time -/

/-- How many steps there can be to the next answer. -/
def pending (s : System) : ℕ :=
  (match s.client.pc with
    | .write => 2 * s.client.next.length + 1
    | .read _ => 0) + 2 * s.toServer.length + s.toClient.length

/-- A step that is not the last of an answer. -/
def Unanswered (host : ByteOrder) (budget : ℕ) (s s' : System) : Prop :=
  Step host budget s s' ∧ s'.client.answers = s.client.answers

lemma pending_step (h : Unanswered host budget s s') : pending s' < pending s := by
  obtain ⟨hstep, hanswers⟩ := h
  unfold pending
  cases hstep with
  | @write n hpc hpos hle =>
    have hlength : (s.toServer ++ s.client.next.take n).length = s.toServer.length + n := by
      rw [List.length_append, List.length_take, min_eq_left hle]
    show 0 + 2 * (s.toServer ++ s.client.next.take n).length + s.toClient.length < _
    rw [hpc, hlength]
    dsimp only
    omega
  | @serve data rest session harrives hreceive =>
    have hdata : 0 < data.length := List.length_pos_iff.2 harrives.nonempty
    rw [serve_toClient hreceive, harrives.split, List.length_append, List.length_append]
    dsimp only [System.serve]
    omega
  | @readByte buff b rest hpc hbyte =>
    have hdone : ¬ Answered (buff ++ [b]) := fun hdone => by
      have hclient : (s.readByte buff b rest).client.answers =
          s.client.answers ++ [buff ++ [b]] :=
        TalkToSvr.answers_readByte_of_answered hdone
      have hlength := congrArg List.length (hclient.symm.trans hanswers)
      rw [List.length_append, List.length_singleton] at hlength
      omega
    have hclient : (s.readByte buff b rest).client = { s.client with pc := .read (buff ++ [b]) } :=
      TalkToSvr.readByte_of_not_answered hdone
    rw [hclient, hpc, hbyte]
    dsimp only [System.readByte]
    rw [List.length_cons]
    omega

end AsioClient
