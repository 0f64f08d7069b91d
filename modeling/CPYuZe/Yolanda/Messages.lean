import CPYuZe.Yolanda.Common
import Mathlib.Order.Filter.AtTopBot.Basic

/-!
# Messages with their lengths in front

`read_message` reads a message that is sent as its length, its type and its payload, the first two
as four bytes each.  It calls `readn` for each of the three, and `readn` calls `read()` until it
has all the bytes, the stream ends or an error comes that is not `EINTR`.

What `read()` answers is decided by its `Arrivals`: each call is interrupted, fails or brings as
many of the bytes to come as they say, at least one if there is one.  Calls are interrupted only
finitely often in a row.

`readMessages_roundTrip` says that however a stream of messages is delivered, the calls return their
lengths and leave their payloads in the buffer, and that the call for a message that is cut off
returns 0 or -1.  For a message without a payload 0 is its length as well, so that one cannot be
told from a whole one when it is cut off (`not_toldApart_empty`).
-/

namespace Yolanda

/-! ## Integer conversions -/

/-- To `u_int32_t`. -/
def toUInt32 (n : ℤ) : ℕ := (n % 2 ^ 32).toNat

lemma toUInt32_of_lt {n : ℕ} (h : n < 2 ^ 32) : toUInt32 n = n := by
  unfold toUInt32
  omega

/-- The number whose big-endian bytes are these. -/
def ntohl (bytes : List UInt8) : ℕ := bytes.foldl (fun n b => n * 256 + b.toNat) 0

/-- The big-endian bytes of a 32-bit number. -/
def htonl (n : ℕ) : List UInt8 :=
  [UInt8.ofNat (n / 2 ^ 24), UInt8.ofNat (n / 2 ^ 16), UInt8.ofNat (n / 2 ^ 8), UInt8.ofNat n]

lemma length_htonl (n : ℕ) : (htonl n).length = 4 := rfl

lemma ntohl_htonl {n : ℕ} (h : n < 2 ^ 32) : ntohl (htonl n) = n := by
  simp only [ntohl, htonl, List.foldl_cons, List.foldl_nil, UInt8.toNat_ofNat']
  omega

/-! ## Reading -/

/-- What a call of `read()` does: it fails, or it brings at most `n + 1` bytes. -/
inductive Arrival
  | fails (e : Errno)
  | brings (n : ℕ)

/-- The answers to the calls of `read()`, in their order. -/
structure Arrivals where
  answers : ℕ → Arrival
  /-- Every row of interruptions ends. -/
  goesOn : ∀ time, ∃ later, time ≤ later ∧ answers later ≠ .fails .EINTR

/-- A connection: how it is delivered, how many calls of `read()` there have been, and the bytes
to come. -/
structure Socket where
  arrivals : Arrivals
  time : ℕ
  stream : List UInt8

/-- `read(fd, …, length)`. -/
def Socket.read (s : Socket) (length : ℕ) : Except Errno (List UInt8) × Socket :=
  match s.arrivals.answers s.time with
  | .fails e => (.error e, { s with time := s.time + 1 })
  | .brings n =>
    (.ok (s.stream.take (min (n + 1) length)),
      { s with time := s.time + 1, stream := s.stream.drop (min (n + 1) length) })

/-- The variables of `readn`: what is left to be read, and the bytes up to `buffer_pointer`. -/
structure ReadnState where
  socket : Socket
  length : ℤ
  bytes : List UInt8

/-- What `readn` returns, the bytes it has stored, and the connection behind it. -/
structure ReadnResult where
  value : ℕ
  bytes : List UInt8
  socket : Socket

/-- One round of the loop in `readn`. -/
def readnTurn (size : ℕ) (s : ReadnState) : Call (Outcome.Turn ReadnState ReadnResult) :=
  if s.length > 0 then
    match s.socket.read s.length.toNat with
    | (.error e, socket) =>
      if e = .EINTR then .returned (.next { s with socket := socket })
      else .returned (.done ⟨toSizeT (-1), s.bytes, socket⟩)
    | (.ok [], socket) => .returned (.done ⟨toSizeT (size - s.length), s.bytes, socket⟩)
    | (.ok (b :: bytes), socket) =>
      .returned (.next ⟨socket, s.length - (b :: bytes).length, s.bytes ++ b :: bytes⟩)
  else .returned (.done ⟨toSizeT (size - s.length), s.bytes, s.socket⟩)

def readn (budget : ℕ) (socket : Socket) (size : ℕ) : Call ReadnResult :=
  Outcome.loop (readnTurn size) budget ⟨socket, toInt size, []⟩

/-- A connection and the caller's buffer. -/
structure Reader where
  socket : Socket
  buffer : List UInt8

/-- What `read_message` returns when `readn` has not read all there should be. -/
def shortRead (rc : ℤ) : ℕ := if rc < 0 then toSizeT (-1) else 0

/-- `read_message`, with the length of the buffer as the third argument. -/
def readMessage (budget : ℕ) (r : Reader) : Call (ℕ × Reader) :=
  readn budget r.socket 4 >>= fun len =>
  if toInt len.value ≠ 4 then
    .returned (shortRead (toInt len.value), { r with socket := len.socket })
  else
    readn budget len.socket 4 >>= fun type =>
    if toInt type.value ≠ 4 then
      .returned (shortRead (toInt type.value), { r with socket := type.socket })
    else if ntohl len.bytes > r.buffer.length then
      .returned (toSizeT (-1), { r with socket := type.socket })
    else
      readn budget type.socket (ntohl len.bytes) >>= fun record =>
      let r : Reader := ⟨record.socket, record.bytes ++ r.buffer.drop record.bytes.length⟩
      if toUInt32 (toInt record.value) ≠ ntohl len.bytes then
        .returned (shortRead (toInt record.value), r)
      else .returned (toSizeT (toInt record.value), r)

/-- A number of calls, each with what it returns and what is in the buffer behind it. -/
def readMessages (budget : ℕ) : ℕ → Reader → Call (List (ℕ × List UInt8) × Reader)
  | 0, r => .returned ([], r)
  | n + 1, r =>
    readMessage budget r >>= fun first =>
    readMessages budget n first.2 >>= fun others =>
    .returned ((first.1, first.2.buffer) :: others.1, others.2)

/-! ## What `readn` reads -/

/-- No call of `read()` fails but by being interrupted. -/
def Arrivals.OnlyInterrupts (d : Arrivals) : Prop :=
  ∀ time e, d.answers time = .fails e → e = .EINTR

/-- The same connection with more calls of `read()` behind it and less to come. -/
structure Socket.Past (s : Socket) (length : ℕ) (s' : Socket) : Prop where
  arrivals : s'.arrivals = s.arrivals
  stream : s'.stream = s.stream.drop length

namespace ReadnState

/-- What the loop comes to: it has read as much as is left to be read, or all there is. -/
structure Reads (size : ℕ) (s : ReadnState) (result : ReadnResult) : Prop where
  past : s.socket.Past s.length.toNat result.socket
  bytes : result.bytes = s.bytes ++ s.socket.stream.take s.length.toNat
  value : result.value =
    toSizeT (size - (s.length - (s.socket.stream.take s.length.toNat).length))

variable {size : ℕ} {s : ReadnState}

/-- Only the number of calls is different behind a row of interruptions. -/
lemma loop_interrupts (size : ℕ) (s : ReadnState) (hpos : 0 < s.length) :
    ∃ calls time, s.socket.arrivals.answers time ≠ .fails .EINTR ∧
      ∀ n, Outcome.loop (readnTurn size) (n + calls) s =
        Outcome.loop (readnTurn size) n { s with socket := { s.socket with time := time } } := by
  obtain ⟨later, hle, hne⟩ := s.socket.arrivals.goesOn s.socket.time
  obtain ⟨k, rfl⟩ := Nat.exists_eq_add_of_le hle
  induction k generalizing s with
  | zero => exact ⟨0, s.socket.time, hne, fun _ => rfl⟩
  | succ k ih =>
    by_cases hint : s.socket.arrivals.answers s.socket.time = .fails .EINTR
    · have hturn : readnTurn size s = .returned (.next
          { s with socket := { s.socket with time := s.socket.time + 1 } }) := by
        simp [readnTurn, Socket.read, hpos, hint]
      obtain ⟨calls, time, htime, hloop⟩ :=
        ih { s with socket := { s.socket with time := s.socket.time + 1 } } hpos
          (Nat.le_add_right _ _) (by rw [Nat.add_right_comm]; exact hne)
      refine ⟨calls + 1, time, htime, fun n => ?_⟩
      rw [← Nat.add_assoc, Outcome.loop_next hturn]
      exact hloop n
    · exact ⟨0, s.socket.time, hint, fun _ => rfl⟩

/-- `s'` is behind a turn of the loop that has read `got`. -/
structure Advances (s : ReadnState) (got : List UInt8) (s' : ReadnState) : Prop where
  stream : s.socket.stream = got ++ s'.socket.stream
  arrivals : s'.socket.arrivals = s.socket.arrivals
  atMost : got.length ≤ s.length.toNat
  length : s'.length = s.length - got.length
  bytes : s'.bytes = s.bytes ++ got

/-- A call of `read()` that is not interrupted finds the end of the stream, or reads something. -/
lemma turn_brings (size : ℕ) {n : ℕ} (hpos : 0 < s.length)
    (hanswer : s.socket.arrivals.answers s.socket.time = .brings n) :
    (∃ result, readnTurn size s = .returned (.done result) ∧ s.Reads size result) ∨
      ∃ got s', got ≠ [] ∧ readnTurn size s = .returned (.next s') ∧ s.Advances got s' := by
  have hread : s.socket.read s.length.toNat =
      (.ok (s.socket.stream.take (min (n + 1) s.length.toNat)),
        ⟨s.socket.arrivals, s.socket.time + 1,
          s.socket.stream.drop (min (n + 1) s.length.toNat)⟩) := by
    simp only [Socket.read, hanswer]
  cases hgot : s.socket.stream.take (min (n + 1) s.length.toNat) with
  | nil =>
    have hnil : s.socket.stream = [] := (List.take_eq_nil_iff.1 hgot).resolve_left (by omega)
    have hturn : readnTurn size s = .returned (.done ⟨toSizeT (size - s.length), s.bytes,
        ⟨s.socket.arrivals, s.socket.time + 1,
          s.socket.stream.drop (min (n + 1) s.length.toNat)⟩⟩) := by
      simp only [readnTurn, if_pos hpos, hread, hgot]
    refine .inl ⟨_, hturn, ⟨rfl, ?_⟩, ?_, ?_⟩
    · rw [hnil, List.drop_nil, List.drop_nil]
    · rw [hnil, List.take_nil, List.append_nil]
    · rw [hnil, List.take_nil, List.length_nil, Nat.cast_zero, sub_zero]
  | cons b bytes =>
    have hturn : readnTurn size s = .returned (.next ⟨⟨s.socket.arrivals, s.socket.time + 1,
        s.socket.stream.drop (min (n + 1) s.length.toNat)⟩,
        s.length - (b :: bytes).length, s.bytes ++ b :: bytes⟩) := by
      simp only [readnTurn, if_pos hpos, hread, hgot]
    refine .inr ⟨b :: bytes, _, List.cons_ne_nil _ _, hturn, ?_, rfl, ?_, rfl, rfl⟩
    · rw [← hgot, List.take_append_drop]
    · rw [← hgot, List.length_take]
      omega

/-- The rest is read behind what has been read. -/
lemma Advances.reads {s' : ReadnState} {got : List UInt8} {result : ReadnResult}
    (h : s.Advances got s') (hreads : s'.Reads size result) : s.Reads size result := by
  have hlength := h.length
  have hle := h.atMost
  have htoNat : s'.length.toNat = s.length.toNat - got.length := by omega
  have htake : s.socket.stream.take s.length.toNat =
      got ++ s'.socket.stream.take s'.length.toNat := by
    rw [h.stream, htoNat, List.take_append, List.take_of_length_le hle]
  have hdrop : s.socket.stream.drop s.length.toNat = s'.socket.stream.drop s'.length.toNat := by
    rw [h.stream, htoNat, List.drop_append, List.drop_of_length_le hle, List.nil_append]
  refine ⟨⟨hreads.past.arrivals.trans h.arrivals, hreads.past.stream.trans hdrop.symm⟩, ?_, ?_⟩
  · rw [hreads.bytes, h.bytes, htake, List.append_assoc]
  · rw [hreads.value, htake, List.length_append, hlength]
    push_cast
    congr 1
    ring

/-- The loop comes back, after as many turns as the bytes and the interruptions take. -/
lemma loop_reads (size : ℕ) (s : ReadnState) (honly : s.socket.arrivals.OnlyInterrupts) :
    ∃ budget result, Outcome.loop (readnTurn size) budget s = .returned result ∧
      s.Reads size result := by
  induction hlength : s.length.toNat using Nat.strong_induction_on generalizing s with
  | _ length ih =>
    by_cases hpos : 0 < s.length
    · obtain ⟨calls, time, htime, hloop⟩ := s.loop_interrupts size hpos
      cases hanswer : s.socket.arrivals.answers time with
      | fails e => exact absurd (honly time e hanswer ▸ hanswer) htime
      | brings n =>
        -- From here on the state is the one behind the interruptions.
        rcases turn_brings (s := { s with socket := { s.socket with time := time } }) size hpos
          hanswer with ⟨result, hturn, hreads⟩ | ⟨got, s', hgot, hturn, hadvances⟩
        · exact ⟨1 + calls, result, (hloop 1).trans (Outcome.loop_done hturn 0),
            ⟨⟨hreads.past.arrivals, hreads.past.stream⟩, hreads.bytes, hreads.value⟩⟩
        · have hless : s'.length.toNat < length := by
            have hgot' := List.length_pos_iff.2 hgot
            have hlength' : s'.length = s.length - got.length := hadvances.length
            omega
          obtain ⟨budget, result, hbudget, hreads⟩ := ih _ hless s'
            (hadvances.arrivals ▸ honly) rfl
          have hreads' := hadvances.reads hreads
          refine ⟨budget + 1 + calls, result, ?_,
            ⟨⟨hreads'.past.arrivals, hreads'.past.stream⟩, hreads'.bytes, hreads'.value⟩⟩
          exact (hloop (budget + 1)).trans ((Outcome.loop_next hturn budget).trans hbudget)
    · have hturn : readnTurn size s =
          .returned (.done ⟨toSizeT (size - s.length), s.bytes, s.socket⟩) := if_neg hpos
      have hzero : s.length.toNat = 0 := Int.toNat_eq_zero.2 (not_lt.1 hpos)
      refine ⟨1, _, Outcome.loop_done hturn 0, ⟨rfl, ?_⟩, ?_, ?_⟩
      · rw [hzero, List.drop_zero]
      · rw [hzero, List.take_zero, List.append_nil]
      · rw [hzero, List.take_zero, List.length_nil, Nat.cast_zero, sub_zero]

end ReadnState

section

variable {socket : Socket} {size : ℕ} {r : Reader}

/-- `readn` reads as much as it is asked for, or all there is, and returns how much that is. -/
lemma readn_spec (honly : socket.arrivals.OnlyInterrupts) (hsize : size < 2 ^ 31) :
    ∃ result, (∀ᶠ budget in Filter.atTop, readn budget socket size = .returned result) ∧
      socket.Past size result.socket ∧ result.bytes = socket.stream.take size ∧
      toInt result.value = (socket.stream.take size).length := by
  obtain ⟨enough, result, hloop, hreads⟩ :=
    ReadnState.loop_reads size ⟨socket, toInt size, []⟩ honly
  have htoNat : (toInt size).toNat = size := by
    rw [toInt_of_lt hsize, Int.toNat_natCast]
  have hpast := hreads.past
  have hbytes := hreads.bytes
  have hvalue := hreads.value
  simp only [htoNat, List.nil_append] at hpast hbytes hvalue
  have hlength : (socket.stream.take size).length < 2 ^ 31 :=
    (List.length_take_le _ _).trans_lt hsize
  refine ⟨result, Filter.eventually_atTop.2 ⟨enough, fun _ hle => Outcome.loop_of_le hle hloop⟩,
    hpast, hbytes, ?_⟩
  rw [hvalue, toInt_of_lt hsize, sub_sub_cancel, toSizeT_of_lt (by omega), toInt_of_lt hlength]

lemma shortRead_natCast (n : ℕ) : shortRead n = 0 := if_neg (Int.natCast_nonneg n).not_gt

/-- The stream ends in the length or in the type. -/
lemma readMessage_of_lt (honly : r.socket.arrivals.OnlyInterrupts)
    (hlength : r.socket.stream.length < 8) :
    ∃ r', ∀ᶠ budget in Filter.atTop, readMessage budget r = .returned (0, r') := by
  obtain ⟨len, hlen, hpast, -, hvalue⟩ := readn_spec honly (by decide : 4 < 2 ^ 31)
  obtain ⟨type, htype, -, -, hvalue'⟩ :=
    readn_spec (hpast.arrivals ▸ honly) (by decide : 4 < 2 ^ 31)
  by_cases hlen4 : toInt len.value = 4
  · have htype4 : toInt type.value ≠ 4 := by
      rw [hvalue', hpast.stream, List.length_take, List.length_drop]
      omega
    refine ⟨{ r with socket := type.socket }, (hlen.and htype).mono fun budget h => ?_⟩
    rw [readMessage, h.1, Outcome.returned_bind, if_neg (not_not.2 hlen4), h.2,
      Outcome.returned_bind, if_pos htype4, hvalue', shortRead_natCast]
  · refine ⟨{ r with socket := len.socket }, hlen.mono fun budget h => ?_⟩
    rw [readMessage, h, Outcome.returned_bind, if_pos hlen4, hvalue, shortRead_natCast]

lemma Socket.Past.trans {s s' s'' : Socket} {m n : ℕ} (h : s.Past m s') (h' : s'.Past n s'') :
    s.Past (m + n) s'' where
  arrivals := h'.arrivals.trans h.arrivals
  stream := by rw [h'.stream, h.stream, List.drop_drop]

/-- The length and the type are there, and the buffer is large enough: the record is read, or what
there is of it. -/
lemma readMessage_record (honly : r.socket.arrivals.OnlyInterrupts)
    (hhead : 8 ≤ r.socket.stream.length) {n : ℕ} (hn : ntohl (r.socket.stream.take 4) = n)
    (hsize : n < 2 ^ 31) (hroom : n ≤ r.buffer.length) :
    ∃ r', (∀ᶠ budget in Filter.atTop, readMessage budget r =
        .returned (if (r.socket.stream.drop 8).length < n then 0 else n, r')) ∧
      r.socket.Past (8 + n) r'.socket ∧
      r'.buffer = (r.socket.stream.drop 8).take n ++
        r.buffer.drop ((r.socket.stream.drop 8).take n).length := by
  obtain ⟨len, hlen, hpast, hbytes, hvalue⟩ := readn_spec honly (by decide : 4 < 2 ^ 31)
  obtain ⟨type, htype, hpast', -, hvalue'⟩ :=
    readn_spec (hpast.arrivals ▸ honly) (by decide : 4 < 2 ^ 31)
  have hpast8 : r.socket.Past 8 type.socket := hpast.trans hpast'
  obtain ⟨record, hrecord, hpast'', hbytes'', hvalue''⟩ :=
    readn_spec (hpast8.arrivals ▸ honly) hsize
  rw [hpast8.stream] at hbytes'' hvalue''
  have hlen4 : toInt len.value = 4 := by
    rw [hvalue, List.length_take]
    omega
  have htype4 : toInt type.value = 4 := by
    rw [hvalue', hpast.stream, List.length_take, List.length_drop]
    omega
  have hntohl : ntohl len.bytes = n := by rw [hbytes, hn]
  refine ⟨⟨record.socket, record.bytes ++ r.buffer.drop record.bytes.length⟩,
    (hlen.and (htype.and hrecord)).mono fun budget h => ?_, hpast8.trans hpast'', ?_⟩
  · rw [readMessage, h.1, Outcome.returned_bind, if_neg (not_not.2 hlen4), h.2.1,
      Outcome.returned_bind, if_neg (not_not.2 htype4), hntohl, if_neg (not_lt.2 hroom), h.2.2,
      Outcome.returned_bind, hvalue'', List.length_take]
    by_cases hshort : (r.socket.stream.drop 8).length < n
    · rw [min_eq_right hshort.le, if_pos hshort, toUInt32_of_lt (by omega), if_pos hshort.ne,
        shortRead_natCast]
    · rw [min_eq_left (not_lt.1 hshort), if_neg hshort, toUInt32_of_lt (by omega),
        if_neg (not_not.2 rfl), toSizeT_of_lt (by omega)]
  · rw [hbytes'']

/-! ## Round trip -/

structure Message where
  type : UInt32
  payload : List UInt8

namespace Message

/-- What is sent. -/
def encode (m : Message) : List UInt8 :=
  htonl m.payload.length ++ htonl m.type.toNat ++ m.payload

/-- The payload is a record that `read_message` takes into a buffer of this length. -/
structure Fits (m : Message) (length : ℕ) : Prop where
  size : m.payload.length < 2 ^ 31
  room : m.payload.length ≤ length

lemma length_encode (m : Message) : m.encode.length = 8 + m.payload.length := by
  rw [encode, List.length_append, List.length_append, length_htonl, length_htonl]

lemma take_encode (m : Message) : m.encode.take 4 = htonl m.payload.length := by
  rw [encode, List.append_assoc]
  exact List.take_left' (length_htonl _)

lemma drop_encode (m : Message) : m.encode.drop 8 = m.payload :=
  List.drop_left' rfl

end Message

/-- The call has returned the length of the payload and left it in the buffer. -/
structure Received (m : Message) (result : ℕ × List UInt8) : Prop where
  value : result.1 = m.payload.length
  payload : m.payload <+: result.2

variable {m : Message} {rest : List UInt8}

lemma readMessage_encode (honly : r.socket.arrivals.OnlyInterrupts) (hfits : m.Fits r.buffer.length)
    (hstream : r.socket.stream = m.encode ++ rest) :
    ∃ value r', (∀ᶠ budget in Filter.atTop, readMessage budget r = .returned (value, r')) ∧
      Received m (value, r'.buffer) ∧ r'.socket.stream = rest ∧
      r'.socket.arrivals = r.socket.arrivals ∧ r'.buffer.length = r.buffer.length := by
  have hle : 8 ≤ m.encode.length := by
    rw [m.length_encode]
    exact Nat.le_add_right _ _
  have htake : r.socket.stream.take 4 = htonl m.payload.length := by
    rw [hstream, List.take_append_of_le_length (by omega), m.take_encode]
  have hdrop : r.socket.stream.drop 8 = m.payload ++ rest := by
    rw [hstream, List.drop_append_of_le_length hle, m.drop_encode]
  have hsize := hfits.size
  obtain ⟨r', hreturned, hpast, hbuffer⟩ := readMessage_record honly
    (by rw [hstream, List.length_append]; omega) (htake ▸ ntohl_htonl (by omega)) hsize hfits.room
  rw [hdrop] at hreturned hbuffer
  rw [List.take_left] at hbuffer
  rw [if_neg (by simp)] at hreturned
  refine ⟨_, r', hreturned, ⟨rfl, hbuffer ▸ List.prefix_append _ _⟩, ?_, hpast.arrivals, ?_⟩
  · rw [hpast.stream, hstream, ← m.length_encode, List.drop_left]
  · rw [hbuffer, List.length_append, List.length_drop]
    exact Nat.add_sub_of_le hfits.room

/-- A frame that is cut off. -/
lemma readMessage_cut (honly : r.socket.arrivals.OnlyInterrupts) (hfits : m.Fits r.buffer.length)
    (hcut : r.socket.stream <+: m.encode) (hne : r.socket.stream ≠ m.encode) :
    ∃ r', ∀ᶠ budget in Filter.atTop, readMessage budget r = .returned (0, r') := by
  by_cases hlength : r.socket.stream.length < 8
  · exact readMessage_of_lt honly hlength
  · have hless : r.socket.stream.length < m.encode.length :=
      lt_of_le_of_ne hcut.length_le fun heq => hne (hcut.eq_of_length heq)
    have htake : r.socket.stream.take 4 = htonl m.payload.length := by
      obtain ⟨tail, htail⟩ := hcut
      rw [← m.take_encode, ← htail, List.take_append_of_le_length (by omega)]
    have hsize := hfits.size
    obtain ⟨r', hreturned, -, -⟩ := readMessage_record honly (not_lt.1 hlength)
      (htake ▸ ntohl_htonl (by omega)) hsize hfits.room
    rw [m.length_encode] at hless
    rw [if_pos (by rw [List.length_drop]; omega)] at hreturned
    exact ⟨r', hreturned⟩

/-- However a stream of messages is delivered, the calls return their lengths and leave their
payloads in the buffer, the next call begins with what is behind them, and for a message that is
cut off it returns 0 or -1 and not its length. -/
theorem readMessages_roundTrip {messages : List Message}
    (honly : r.socket.arrivals.OnlyInterrupts) (hfits : ∀ m ∈ messages, m.Fits r.buffer.length)
    (hstream : r.socket.stream = messages.flatMap Message.encode ++ rest) :
    ∃ results r', (∀ᶠ budget in Filter.atTop,
        readMessages budget messages.length r = .returned (results, r')) ∧
      List.Forall₂ Received messages results ∧ r'.socket.stream = rest ∧
      ∀ m : Message, m.Fits r.buffer.length → rest <+: m.encode → rest ≠ m.encode →
        ∃ value r'', (∀ᶠ budget in Filter.atTop, readMessage budget r' = .returned (value, r'')) ∧
          (value = 0 ∨ value = toSizeT (-1)) ∧ (m.payload ≠ [] → value ≠ m.payload.length) := by
  induction messages generalizing r with
  | nil =>
    refine ⟨[], r, .of_forall fun _ => rfl, .nil, hstream, fun m hm hcut hne => ?_⟩
    rw [List.flatMap_nil, List.nil_append] at hstream
    rw [← hstream] at hcut hne
    obtain ⟨r', hreturned⟩ := readMessage_cut honly hm hcut hne
    exact ⟨0, r', hreturned, .inl rfl, fun hpayload heq =>
      hpayload (List.length_eq_zero_iff.1 heq.symm)⟩
  | cons m messages ih =>
    rw [List.flatMap_cons, List.append_assoc] at hstream
    obtain ⟨value, r₁, hfirst, hreceived, hrest, harrivals, hbuffer⟩ :=
      readMessage_encode honly (hfits m List.mem_cons_self) hstream
    obtain ⟨results, r', hothers, hall, hend, hcut⟩ := ih (harrivals ▸ honly)
      (fun m' hm' => hbuffer ▸ hfits m' (List.mem_cons_of_mem m hm')) hrest
    refine ⟨(value, r₁.buffer) :: results, r', (hfirst.and hothers).mono fun budget h => ?_,
      .cons hreceived hall, hend, fun m' hm' => hcut m' (hbuffer ▸ hm')⟩
    rw [List.length_cons, readMessages, h.1, Outcome.returned_bind, h.2]
    rfl

/-- One byte a call, and every other call is interrupted. -/
def byteByByte : Arrivals where
  answers time := if time % 2 = 0 then .fails .EINTR else .brings 0
  goesOn time := by
    refine ⟨2 * time + 1, by omega, ?_⟩
    rw [if_neg (by omega)]
    simp

lemma byteByByte_onlyInterrupts : byteByByte.OnlyInterrupts := by
  intro time e h
  simp only [byteByByte] at h
  split at h
  · exact (Arrival.fails.inj h).symm
  · cases h

def twoAndAHalf : Reader :=
  ⟨⟨byteByByte, 0, [0, 0, 0, 2, 0, 0, 0, 7, 65, 66, 0, 0, 0, 0, 0, 0, 0, 1, 0, 0]⟩, [0, 0, 0]⟩

/-- Two messages and half the length of a third one. -/
theorem readMessages_roundTrip_byteByByte : ∃ results r', (∀ᶠ budget in Filter.atTop,
      readMessages budget 2 twoAndAHalf = .returned (results, r')) ∧
    List.Forall₂ Received [⟨7, [65, 66]⟩, ⟨1, []⟩] results ∧ r'.socket.stream = [0, 0] := by
  have honly : twoAndAHalf.socket.arrivals.OnlyInterrupts := byteByByte_onlyInterrupts
  have hfits : ∀ m ∈ [(⟨7, [65, 66]⟩ : Message), ⟨1, []⟩], m.Fits twoAndAHalf.buffer.length := by
    intro m hm
    rcases List.mem_pair.1 hm with rfl | rfl
    · exact ⟨by decide, by decide⟩
    · exact ⟨by decide, by decide⟩
  have hstream : twoAndAHalf.socket.stream =
      [(⟨7, [65, 66]⟩ : Message), ⟨1, []⟩].flatMap Message.encode ++ [0, 0] := by decide
  obtain ⟨results, r', hreturned, hall, hend, -⟩ := readMessages_roundTrip honly hfits hstream
  exact ⟨results, r', hreturned, hall, hend⟩

/-- What the call returns for a message that is cut off is not what it returns for the whole one. -/
def ToldApart (r : Reader) (m : Message) : Prop :=
  ∃ value r', (∀ᶠ budget in Filter.atTop, readMessage budget r = .returned (value, r')) ∧
    (value = 0 ∨ value = toSizeT (-1)) ∧ value ≠ m.payload.length

/-- Of a message without a payload two bytes of the length have arrived. -/
theorem not_toldApart_empty :
    ¬ ∀ (r : Reader) (m : Message), r.socket.arrivals.OnlyInterrupts → m.Fits r.buffer.length →
      r.socket.stream <+: m.encode → r.socket.stream ≠ m.encode → ToldApart r m := by
  intro h
  have honly := byteByByte_onlyInterrupts
  have hfits : (⟨1, []⟩ : Message).Fits ([] : List UInt8).length := ⟨by decide, by decide⟩
  have hcut : [0, 0] <+: (⟨1, []⟩ : Message).encode := by decide
  have hne : [0, 0] ≠ (⟨1, []⟩ : Message).encode := by decide
  obtain ⟨value, r', hreturned, -, hvalue⟩ :=
    h ⟨⟨byteByByte, 0, [0, 0]⟩, []⟩ ⟨1, []⟩ honly hfits hcut hne
  obtain ⟨r'', hzero⟩ := readMessage_cut (m := ⟨1, []⟩) (r := ⟨⟨byteByByte, 0, [0, 0]⟩, []⟩)
    honly hfits hcut hne
  obtain ⟨budget, hbudget, hbudget'⟩ := (hreturned.and hzero).exists
  rw [hbudget, Outcome.returned.injEq, Prod.mk.injEq] at hbudget'
  exact hvalue hbudget'.1

end

end Yolanda
