import CPYuZe.Library.Budget
import CPYuZe.Library.Delivery
import CPYuZe.Yolanda.Messages

/-!
# Line readers

`read.c` has three functions that read a line into the caller's buffer.  `readline_2` asks for one
byte at a time.  `readline` asks for blocks of 512 bytes and hands out the line from them; the block
and the pointer into it are `static`, and the number of bytes left in it is not, so that what a call
leaves of a block is not there for the next one.  `read_line` asks for one byte at a time as well,
and looks one byte ahead behind a carriage return, so that every line ends with a newline in the
buffer.

The functions count the room in the buffer in three ways.  `buffer` is the caller's memory, and its
length is what the caller passes; a store is checked against it.
-/

namespace Yolanda

abbrev Incoming := List (Delivery Errno UInt8)

/-- `'\n'`. -/
abbrev newline : UInt8 := 10

/-- `'\r'`. -/
abbrev carriageReturn : UInt8 := 13

/-- `buffer[i] = c`. -/
def store (buffer : List UInt8) (i : ℕ) (c : UInt8) : Call (List UInt8) :=
  if i < buffer.length then .returned (buffer.set i c) else .faulted .outOfBounds

/-- What a line reader returns, the caller's buffer, and what is still to come. -/
structure LineResult where
  value : ℕ
  buffer : List UInt8
  incoming : Incoming

/-- The buffer with `bytes` stored from `i` on. -/
def overwrite (buffer : List UInt8) (i : ℕ) (bytes : List UInt8) : List UInt8 :=
  buffer.take i ++ bytes ++ buffer.drop (i + bytes.length)

section

variable {buffer : List UInt8} {i : ℕ} {c : UInt8}

lemma store_of_lt (h : i < buffer.length) : store buffer i c = .returned (buffer.set i c) :=
  if_pos h

lemma store_of_le (h : buffer.length ≤ i) : store buffer i c = .faulted .outOfBounds :=
  if_neg (not_lt.2 h)

lemma overwrite_set (h : i < buffer.length) (bytes : List UInt8) :
    overwrite (buffer.set i c) (i + 1) bytes = overwrite buffer i (c :: bytes) := by
  have htake : (buffer.set i c).take (i + 1) = buffer.take i ++ [c] := by
    rw [List.take_succ_eq_append_getElem (by rwa [List.length_set]), List.getElem_set_self,
      List.take_set_of_le le_rfl]
  have hdrop : (buffer.set i c).drop (i + 1 + bytes.length) =
      buffer.drop (i + (c :: bytes).length) := by
    rw [List.drop_set_of_lt (by omega), List.length_cons]
    congr 1
    omega
  rw [overwrite, htake, hdrop, overwrite, List.append_assoc (buffer.take i), List.singleton_append]

lemma overwrite_nil (buffer : List UInt8) (i : ℕ) : overwrite buffer i [] = buffer := by
  rw [overwrite, List.append_nil, List.length_nil, Nat.add_zero, List.take_append_drop]

lemma overwrite_zero (buffer bytes : List UInt8) :
    overwrite buffer 0 bytes = bytes ++ buffer.drop bytes.length := by
  rw [overwrite, List.take_zero, List.nil_append, Nat.zero_add]

lemma length_overwrite {bytes : List UInt8} (h : i + bytes.length ≤ buffer.length) :
    (overwrite buffer i bytes).length = buffer.length := by
  rw [overwrite, List.length_append, List.length_append, List.length_take, List.length_drop]
  omega

end

/-! ## `readline_2` -/

/-- The variables of `readline_2`; `index` is `buffer - buf_first`. -/
structure Readline2State where
  incoming : Incoming
  buffer : List UInt8
  index : ℕ
  length : ℕ

def readline2Turn (s : Readline2State) : Call (Outcome.Turn Readline2State LineResult) :=
  if s.length > 0 then
    match Delivery.recv 1 s.incoming with
    | (.ok [c], incoming) => do
      let buffer ← store s.buffer s.index c
      if c = newline then
        let buffer ← store buffer (s.index + 1) 0
        pure (.done ⟨s.index + 1, buffer, incoming⟩)
      else pure (.next ⟨incoming, buffer, s.index + 1, s.length - 1⟩)
    | (_, incoming) => .returned (.done ⟨toSizeT (-1), s.buffer, incoming⟩)
  else .returned (.done ⟨toSizeT (-1), s.buffer, s.incoming⟩)

def readline2 (budget : ℕ) (incoming : Incoming) (buffer : List UInt8) : Call LineResult :=
  Outcome.loop readline2Turn budget ⟨incoming, buffer, 0, buffer.length⟩

/-! ## `readline` -/

/-- The size of `read_buffer`. -/
def readBufferSize : ℕ := 512

/-- The `static` variables of `readline`. -/
structure ReadlineStatic where
  /-- The offset in `readBuffer`, or `none` before it is set. -/
  bufferPointer : Option ℕ
  readBuffer : List UInt8

/-- The variables of `readline`; `index` is `buffer - buf_first`. -/
structure ReadlineState where
  incoming : Incoming
  static : ReadlineStatic
  buffer : List UInt8
  index : ℕ
  length : ℕ
  nleft : ℤ

/-- `*buffer_pointer++`. -/
def ReadlineStatic.next (static : ReadlineStatic) : Call (UInt8 × ReadlineStatic) :=
  match static.bufferPointer with
  | none => .faulted .nullPointer
  | some p =>
    match static.readBuffer[p]? with
    | none => .faulted .outOfBounds
    | some c => .returned (c, { static with bufferPointer := some (p + 1) })

/-- `recv` has put `bytes` into `read_buffer`. -/
def ReadlineState.fill (s : ReadlineState) (bytes : List UInt8) (incoming : Incoming) :
    ReadlineState :=
  { s with
    incoming := incoming
    static :=
      { bufferPointer := some 0
        readBuffer := bytes ++ s.static.readBuffer.drop bytes.length }
    nleft := bytes.length }

/-- The round of the loop from where there is a byte in `read_buffer`. -/
def readlineTake (s : ReadlineState) :
    Call (Outcome.Turn ReadlineState (LineResult × ReadlineStatic)) := do
  let (c, static) ← s.static.next
  let buffer ← store s.buffer s.index c
  if c = newline then
    let buffer ← store buffer (s.index + 1) 0
    pure (.done (⟨s.index + 1, buffer, s.incoming⟩, static))
  else
    pure (.next { s with
      static := static, buffer := buffer, index := s.index + 1, nleft := s.nleft - 1 })

def readlineTurn (s : ReadlineState) :
    Call (Outcome.Turn ReadlineState (LineResult × ReadlineStatic)) :=
  let s : ReadlineState := { s with length := toSizeT (s.length - 1) }
  if s.length > 0 then
    if s.nleft ≤ 0 then
      match Delivery.recv readBufferSize s.incoming with
      | (.error e, incoming) =>
        if e = .EINTR then
          .returned (.next { s with incoming := incoming, length := toSizeT (s.length + 1) })
        else .returned (.done (⟨toSizeT (-1), s.buffer, incoming⟩, s.static))
      | (.ok [], incoming) => .returned (.done (⟨0, s.buffer, incoming⟩, s.static))
      | (.ok (b :: bytes), incoming) =>
        readlineTake (s.fill (b :: bytes) incoming)
    else readlineTake s
  else .returned (.done (⟨toSizeT (-1), s.buffer, s.incoming⟩, s.static))

def readline (budget : ℕ) (static : ReadlineStatic) (incoming : Incoming) (buffer : List UInt8) :
    Call (LineResult × ReadlineStatic) :=
  Outcome.loop readlineTurn budget ⟨incoming, static, buffer, 0, buffer.length, 0⟩

/-! ## `read_line` -/

/-- The variables of `read_line`. -/
structure ReadLineState where
  incoming : Incoming
  buf : List UInt8
  i : ℕ
  c : UInt8

/-- The condition of the loop. -/
def ReadLineState.GoesOn (s : ReadLineState) : Prop :=
  (s.i : ℤ) < s.buf.length - 1 ∧ s.c ≠ newline

instance (s : ReadLineState) : Decidable s.GoesOn := inferInstanceAs (Decidable (_ ∧ _))

/-- The variable `c` behind a call of `recv(fd, &c, 1, …)`. -/
def recvByte (c : UInt8) : Except Errno (List UInt8) → UInt8
  | .ok [c'] => c'
  | _ => c

/-- What becomes of a carriage return. -/
def readLineAhead (incoming : Incoming) : UInt8 × Incoming :=
  match Delivery.peek 1 incoming with
  | (.ok [c], incoming) =>
    if c = newline then
      let (result, incoming) := Delivery.recv 1 incoming
      (recvByte c result, incoming)
    else (newline, incoming)
  | (_, incoming) => (newline, incoming)

def readLineTurn (s : ReadLineState) : Call (Outcome.Turn ReadLineState LineResult) :=
  if s.GoesOn then
    match Delivery.recv 1 s.incoming with
    | (.ok [c], incoming) => do
      let (c, incoming) := if c = carriageReturn then readLineAhead incoming else (c, incoming)
      let buf ← store s.buf s.i c
      pure (.next ⟨incoming, buf, s.i + 1, c⟩)
    | (_, incoming) => .returned (.next { s with incoming := incoming, c := newline })
  else do
    let buf ← store s.buf s.i 0
    pure (.done ⟨s.i, buf, s.incoming⟩)

def readLine (budget : ℕ) (incoming : Incoming) (buf : List UInt8) : Call LineResult :=
  Outcome.loop readLineTurn budget ⟨incoming, buf, 0, 0⟩

/-! ## Callers -/

/-- A caller that reads lines from one connection into one buffer. -/
structure LineReader where
  static : ReadlineStatic
  incoming : Incoming
  buffer : List UInt8

/-- A call of `readline`, with what it returns and what is in the buffer behind it. -/
def LineReader.readline (budget : ℕ) (s : LineReader) : Call ((ℕ × List UInt8) × LineReader) :=
  Yolanda.readline budget s.static s.incoming s.buffer >>= fun r =>
  .returned ((r.1.value, r.1.buffer), ⟨r.2, r.1.incoming, r.1.buffer⟩)

/-- A call of `readline_2`. -/
def LineReader.readline2 (budget : ℕ) (s : LineReader) : Call ((ℕ × List UInt8) × LineReader) :=
  Yolanda.readline2 budget s.incoming s.buffer >>= fun r =>
  .returned ((r.value, r.buffer), ⟨s.static, r.incoming, r.buffer⟩)

/-- A call of `read_line`. -/
def LineReader.readLine (budget : ℕ) (s : LineReader) : Call ((ℕ × List UInt8) × LineReader) :=
  Yolanda.readLine budget s.incoming s.buffer >>= fun r =>
  .returned ((r.value, r.buffer), ⟨s.static, r.incoming, r.buffer⟩)

/-! ## The rounds of the loops -/

lemma set_eq_overwrite {buffer : List UInt8} {i : ℕ} (h : i < buffer.length) (c : UInt8) :
    buffer.set i c = overwrite buffer i [c] := by
  rw [← overwrite_set h, overwrite_nil]

/-- The two stores behind the last byte of a line. -/
lemma set_set_eq_overwrite {buffer : List UInt8} {i : ℕ} (h : i + 1 < buffer.length) (c : UInt8) :
    (buffer.set i c).set (i + 1) 0 = overwrite buffer i [c, 0] := by
  rw [set_eq_overwrite (by rwa [List.length_set]), overwrite_set (by omega)]

namespace Readline2State

variable {s : Readline2State}

/-- A byte arrives, and there is room for it. -/
lemma turn_cons {c : UInt8} {bytes : List UInt8} (hlength : 0 < s.length)
    (hbytes : Delivery.upToFailure s.incoming = c :: bytes) (hroom : s.index < s.buffer.length) :
    ∃ incoming, Delivery.upToFailure incoming = bytes ∧
      (Delivery.Unfailing s.incoming → Delivery.Unfailing incoming) ∧
      readline2Turn s =
        if c = newline then
          store (s.buffer.set s.index c) (s.index + 1) 0 >>= fun buffer =>
            .returned (.done ⟨s.index + 1, buffer, incoming⟩)
        else .returned (.next ⟨incoming, s.buffer.set s.index c, s.index + 1, s.length - 1⟩) := by
  obtain ⟨incoming, hrecv, -, hrest, hunfailing⟩ := Delivery.recv_one_cons hbytes
  refine ⟨incoming, hrest, hunfailing, ?_⟩
  rw [readline2Turn, if_pos hlength, hrecv]
  simp only [store_of_lt hroom]
  rfl

/-- There is no byte to read, or no room for one. -/
lemma turn_done (h : s.length = 0 ∨ Delivery.upToFailure s.incoming = []) :
    ∃ incoming, readline2Turn s = .returned (.done ⟨toSizeT (-1), s.buffer, incoming⟩) := by
  by_cases hlength : s.length = 0
  · exact ⟨s.incoming, if_neg (by omega)⟩
  · refine ⟨s.incoming.tail, ?_⟩
    rw [readline2Turn, if_pos (Nat.pos_of_ne_zero hlength)]
    rcases Delivery.recv_one_nil (h.resolve_left hlength) with ⟨⟨e, hrecv⟩, -⟩ | hnil
    · rw [hrecv]
    · rw [hnil]
      rfl

end Readline2State

namespace ReadlineState

/-- What is left in `read_buffer`. -/
structure Ahead (s : ReadlineState) (bytes : List UInt8) : Prop where
  count : s.nleft = bytes.length
  there : bytes ≠ [] →
    ∃ p, s.static.bufferPointer = some p ∧ bytes <+: s.static.readBuffer.drop p

variable {s : ReadlineState}

lemma ahead_fill (s : ReadlineState) (bytes : List UInt8) (incoming : Incoming) :
    (s.fill bytes incoming).Ahead bytes :=
  ⟨rfl, fun _ => ⟨0, rfl, List.prefix_append _ _⟩⟩

/-- The next byte is taken from what is left in `read_buffer`. -/
lemma Ahead.next {c : UInt8} {bytes : List UInt8} (h : s.Ahead (c :: bytes)) :
    ∃ static, s.static.next = .returned (c, static) ∧ ∀ incoming buffer index length,
      Ahead ⟨incoming, static, buffer, index, length, s.nleft - 1⟩ bytes := by
  obtain ⟨p, hp, suffix, hsuffix⟩ := h.there (List.cons_ne_nil c bytes)
  have hc : s.static.readBuffer[p]? = some c := by
    have hfirst : (s.static.readBuffer.drop p)[0]? = some c := by
      rw [← hsuffix]
      rfl
    rwa [List.getElem?_drop] at hfirst
  refine ⟨{ s.static with bufferPointer := some (p + 1) }, ?_, fun _ _ _ _ => ⟨?_, fun _ => ?_⟩⟩
  · rw [ReadlineStatic.next, hp]
    simp only [hc]
  · show s.nleft - 1 = bytes.length
    rw [h.count, List.length_cons]
    push_cast
    ring
  · refine ⟨p + 1, rfl, suffix, ?_⟩
    rw [← List.tail_drop, ← hsuffix]
    rfl

/-- A byte is left in `read_buffer`. -/
lemma turn_take {c : UInt8} {bytes : List UInt8} (h : s.Ahead (c :: bytes))
    (hlength : 0 < toSizeT (s.length - 1)) (hroom : s.index < s.buffer.length) :
    ∃ static, (∀ incoming buffer index length,
        Ahead ⟨incoming, static, buffer, index, length, s.nleft - 1⟩ bytes) ∧
      readlineTurn s =
        if c = newline then
          store (s.buffer.set s.index c) (s.index + 1) 0 >>= fun buffer =>
            .returned (.done (⟨s.index + 1, buffer, s.incoming⟩, static))
        else .returned (.next ⟨s.incoming, static, s.buffer.set s.index c, s.index + 1,
          toSizeT (s.length - 1), s.nleft - 1⟩) := by
  obtain ⟨static, hnext, hahead⟩ := h.next
  have hleft : ¬ s.nleft ≤ 0 := by
    rw [h.count, List.length_cons]
    omega
  refine ⟨static, hahead, ?_⟩
  rw [readlineTurn]
  simp only [if_pos hlength, if_neg hleft, readlineTake, hnext, store_of_lt hroom,
    Outcome.returned_bind]
  rfl

/-- A byte is left in `read_buffer`, and there is no room for it. -/
lemma turn_overflow {c : UInt8} {bytes : List UInt8} (h : s.Ahead (c :: bytes))
    (hlength : 0 < toSizeT (s.length - 1)) (hroom : s.buffer.length ≤ s.index) :
    readlineTurn s = .faulted .outOfBounds := by
  obtain ⟨static, hnext, -⟩ := h.next
  have hleft : ¬ s.nleft ≤ 0 := by
    rw [h.count, List.length_cons]
    omega
  rw [readlineTurn]
  simp only [if_pos hlength, if_neg hleft, readlineTake, hnext, store_of_le hroom]
  rfl

/-- A new block is put into `read_buffer`, and the round goes on as if it had been there. -/
lemma turn_fill {c : UInt8} {bytes : List UInt8} {incoming : Incoming} (h : s.Ahead [])
    (hlength : 0 < toSizeT (s.length - 1))
    (hrecv : Delivery.recv readBufferSize s.incoming = (.ok (c :: bytes), incoming)) :
    readlineTurn s = readlineTurn (s.fill (c :: bytes) incoming) := by
  have hempty : s.nleft ≤ 0 := h.count.le
  have hfull : ¬ (s.fill (c :: bytes) incoming).nleft ≤ 0 := by
    show ¬ ((c :: bytes).length : ℤ) ≤ 0
    rw [List.length_cons]
    omega
  have hlength' : 0 < toSizeT ((s.fill (c :: bytes) incoming).length - 1) := hlength
  rw [readlineTurn, readlineTurn]
  simp only [if_pos hlength, if_pos hlength', if_pos hempty, if_neg hfull, hrecv]
  rfl

end ReadlineState

namespace ReadLineState

variable {s : ReadLineState}

/-- A byte arrives. -/
lemma turn_cons {c : UInt8} {bytes : List UInt8} (h : s.GoesOn)
    (hbytes : Delivery.upToFailure s.incoming = c :: bytes) :
    ∃ incoming, Delivery.upToFailure incoming = bytes ∧
      (Delivery.Unfailing s.incoming → Delivery.Unfailing incoming) ∧
      ∀ ahead, (if c = carriageReturn then readLineAhead incoming else (c, incoming)) = ahead →
        readLineTurn s =
          .returned (.next ⟨ahead.2, s.buf.set s.i ahead.1, s.i + 1, ahead.1⟩) := by
  obtain ⟨incoming, hrecv, -, hrest, hunfailing⟩ := Delivery.recv_one_cons hbytes
  have hroom : s.i < s.buf.length := by
    have hlt := h.1
    omega
  refine ⟨incoming, hrest, hunfailing, fun ahead hahead => ?_⟩
  rw [readLineTurn, if_pos h, hrecv]
  simp only [hahead, store_of_lt hroom]
  rfl

/-- No byte arrives. -/
lemma turn_nil (h : s.GoesOn) (hbytes : Delivery.upToFailure s.incoming = []) :
    readLineTurn s = .returned (.next { s with incoming := s.incoming.tail, c := newline }) := by
  rw [readLineTurn, if_pos h]
  rcases Delivery.recv_one_nil hbytes with ⟨⟨e, hrecv⟩, -⟩ | hnil
  · rw [hrecv]
  · rw [hnil]
    rfl

lemma turn_done (h : ¬ s.GoesOn) (hroom : s.i < s.buf.length) :
    readLineTurn s = .returned (.done ⟨s.i, s.buf.set s.i 0, s.incoming⟩) := by
  rw [readLineTurn, if_neg h, store_of_lt hroom]
  rfl

/-- The zero is stored past the buffer. -/
lemma turn_overflow (h : ¬ s.GoesOn) (hroom : s.buf.length ≤ s.i) :
    readLineTurn s = .faulted .outOfBounds := by
  rw [readLineTurn, if_neg h, store_of_le hroom]
  rfl

end ReadLineState

end Yolanda
