import CPYuZe.Library.Budget
import CPYuZe.Yolanda.Messages

/-!
# Messages that do not fit

`read_message` looks whether the record fits in the caller's buffer when it has read the length and
the type, and returns -1 if it does not.  The record stays in the stream, so the next call begins
inside the frame (`readMessage_reject`): it takes bytes of the record for a length and a type.

A run of calls leaves the stream at the end of a frame whenever it rejects one exactly if it comes
to no frame that is larger than the buffer (`rejectsInFrame_iff`).
-/

namespace Yolanda

open Outcome (Settles)

/-! ## What every call keeps -/

/-- The connection is delivered as before, and the buffer is as long as before. -/
structure Reader.Keeps (r r' : Reader) : Prop where
  arrivals : r'.socket.arrivals = r.socket.arrivals
  length : r'.buffer.length = r.buffer.length

lemma Reader.Keeps.trans {r r' r'' : Reader} (h : r.Keeps r') (h' : r'.Keeps r'') : r.Keeps r'' :=
  ⟨h'.arrivals.trans h.arrivals, h'.length.trans h.length⟩

lemma Socket.read_arrivals (s : Socket) (length : ℕ) :
    (s.read length).2.arrivals = s.arrivals := by
  unfold Socket.read
  split <;> rfl

lemma Socket.length_read {s socket : Socket} {length : ℕ} {bytes : List UInt8}
    (h : s.read length = (.ok bytes, socket)) : bytes.length ≤ length := by
  unfold Socket.read at h
  split at h
  · next => exact absurd (Prod.mk.inj h).1 (by simp)
  · next n _ =>
    obtain ⟨hbytes, -⟩ := Prod.mk.inj h
    rw [← Except.ok.inj hbytes, List.length_take]
    omega

/-- A turn of the loop in `readn` stores at most as many bytes as are left to be read, and counts
them. -/
lemma readnTurn_keeps (size : ℕ) (s : ReadnState) :
    (∃ result, readnTurn size s = .returned (.done result) ∧
      result.socket.arrivals = s.socket.arrivals ∧ result.bytes = s.bytes) ∨
    ∃ s', readnTurn size s = .returned (.next s') ∧
      s'.socket.arrivals = s.socket.arrivals ∧
        s'.bytes.length + s'.length.toNat ≤ s.bytes.length + s.length.toNat := by
  by_cases hpos : s.length > 0
  · have harrivals := s.socket.read_arrivals s.length.toNat
    unfold readnTurn
    rw [if_pos hpos]
    cases hread : s.socket.read s.length.toNat with
    | mk answer socket =>
      rw [hread] at harrivals
      match answer with
      | .error e =>
        by_cases he : e = .EINTR
        · exact .inr ⟨_, if_pos he, harrivals, le_rfl⟩
        · exact .inl ⟨_, if_neg he, harrivals, rfl⟩
      | .ok [] => exact .inl ⟨_, rfl, harrivals, rfl⟩
      | .ok (b :: bytes) =>
        have hgot := Socket.length_read hread
        refine .inr ⟨_, rfl, harrivals, ?_⟩
        simp only [List.length_append]
        omega
  · exact .inl ⟨_, if_neg hpos, rfl, rfl⟩

/-- `readn` stores at most as many bytes as are left to be read. -/
lemma readn_loop_keeps {size budget : ℕ} {s : ReadnState} {result : ReadnResult}
    (h : Outcome.loop (readnTurn size) budget s = .returned result) :
    result.socket.arrivals = s.socket.arrivals ∧
      result.bytes.length ≤ s.bytes.length + s.length.toNat := by
  induction budget generalizing s with
  | zero => exact absurd h (by simp)
  | succ budget ih =>
    rcases readnTurn_keeps size s with
      ⟨last, hturn, harrivals, hbytes⟩ | ⟨s', hturn, harrivals, hless⟩
    · rw [Outcome.loop_done hturn] at h
      obtain rfl := Outcome.returned.inj h
      refine ⟨harrivals, ?_⟩
      rw [hbytes]
      exact Nat.le_add_right _ _
    · rw [Outcome.loop_next hturn] at h
      obtain ⟨hsame, hbound⟩ := ih h
      exact ⟨hsame.trans harrivals, hbound.trans hless⟩

lemma toInt_le (n : ℕ) : toInt n ≤ n := by
  unfold toInt
  rw [Int.bmod_def]
  split <;> omega

lemma readn_keeps {budget size : ℕ} {socket : Socket} {result : ReadnResult}
    (h : readn budget socket size = .returned result) :
    result.socket.arrivals = socket.arrivals ∧ result.bytes.length ≤ size := by
  rw [readn] at h
  obtain ⟨harrivals, hless⟩ := readn_loop_keeps h
  have hint := toInt_le size
  simp only [List.length_nil, Nat.zero_add] at hless
  exact ⟨harrivals, by omega⟩

lemma readMessage_keeps {budget : ℕ} {r r' : Reader} {value : ℕ}
    (h : readMessage budget r = .returned (value, r')) : r.Keeps r' := by
  rw [readMessage, Outcome.bind_eq_returned] at h
  obtain ⟨len, hlen, h⟩ := h
  obtain ⟨harrivals, -⟩ := readn_keeps hlen
  by_cases hcut : toInt len.value ≠ 4
  · rw [if_pos hcut] at h
    obtain ⟨-, rfl⟩ := Prod.mk.inj (Outcome.returned.inj h)
    exact ⟨harrivals, rfl⟩
  rw [if_neg hcut, Outcome.bind_eq_returned] at h
  obtain ⟨type, htype, h⟩ := h
  obtain ⟨harrivals', -⟩ := readn_keeps htype
  by_cases hcut' : toInt type.value ≠ 4
  · rw [if_pos hcut'] at h
    obtain ⟨-, rfl⟩ := Prod.mk.inj (Outcome.returned.inj h)
    exact ⟨harrivals'.trans harrivals, rfl⟩
  rw [if_neg hcut'] at h
  by_cases hroom : ntohl len.bytes > r.buffer.length
  · rw [if_pos hroom] at h
    obtain ⟨-, rfl⟩ := Prod.mk.inj (Outcome.returned.inj h)
    exact ⟨harrivals'.trans harrivals, rfl⟩
  rw [if_neg hroom, Outcome.bind_eq_returned] at h
  obtain ⟨record, hrecord, h⟩ := h
  obtain ⟨harrivals'', hless⟩ := readn_keeps hrecord
  have hkeeps : r.Keeps ⟨record.socket, record.bytes ++ r.buffer.drop record.bytes.length⟩ := by
    refine ⟨(harrivals''.trans harrivals').trans harrivals, ?_⟩
    rw [List.length_append, List.length_drop]
    omega
  simp only at h
  split_ifs at h
  · obtain ⟨-, rfl⟩ := Prod.mk.inj (Outcome.returned.inj h)
    exact hkeeps
  · obtain ⟨-, rfl⟩ := Prod.mk.inj (Outcome.returned.inj h)
    exact hkeeps

lemma readMessages_keeps {budget n : ℕ} {r r' : Reader} {results : List (ℕ × List UInt8)}
    (h : readMessages budget n r = .returned (results, r')) : r.Keeps r' := by
  induction n generalizing r results with
  | zero =>
    obtain ⟨-, rfl⟩ := Prod.mk.inj (Outcome.returned.inj h)
    exact ⟨rfl, rfl⟩
  | succ n ih =>
    rw [readMessages, Outcome.bind_eq_returned] at h
    obtain ⟨first, hfirst, h⟩ := h
    rw [Outcome.bind_eq_returned] at h
    obtain ⟨others, hothers, h⟩ := h
    obtain ⟨-, rfl⟩ := Prod.mk.inj (Outcome.returned.inj h)
    exact (readMessage_keeps hfirst).trans (ih hothers)

/-! ## A message that does not fit -/

section

variable {r : Reader} {m : Message} {behind : List UInt8}

/-- The length and the type are taken from the stream, and the payload is left in it. -/
lemma readMessage_reject (honly : r.socket.arrivals.OnlyInterrupts)
    (hlarge : r.buffer.length < m.payload.length) (hsize : m.payload.length < 2 ^ 32)
    (hstream : r.socket.stream = m.encode ++ behind) :
    ∃ r', Settles (fun budget => readMessage budget r) (.returned (toSizeT (-1), r')) ∧
      r'.socket.stream = m.payload ++ behind := by
  have hle : 8 ≤ m.encode.length := by
    rw [m.length_encode]
    exact Nat.le_add_right _ _
  obtain ⟨len, hlen, hpast, hbytes, hvalue⟩ := readn_spec honly (by decide : 4 < 2 ^ 31)
  obtain ⟨type, htype, hpast', -, hvalue'⟩ :=
    readn_spec (hpast.arrivals ▸ honly) (by decide : 4 < 2 ^ 31)
  have htake : r.socket.stream.take 4 = htonl m.payload.length := by
    rw [hstream, List.take_append_of_le_length (by omega), m.take_encode]
  have hntohl : ntohl len.bytes = m.payload.length := by
    rw [hbytes, htake, ntohl_htonl hsize]
  have hlen4 : toInt len.value = 4 := by
    rw [hvalue, htake]
    rfl
  have htype4 : toInt type.value = 4 := by
    rw [hvalue', hpast.stream, List.length_take, List.length_drop, hstream, List.length_append]
    omega
  refine ⟨{ r with socket := type.socket }, (hlen.and htype).mono fun budget h => ?_, ?_⟩
  · show readMessage budget r = _
    rw [readMessage, h.1, Outcome.returned_bind, if_neg (not_not.2 hlen4), h.2,
      Outcome.returned_bind, if_neg (not_not.2 htype4), hntohl, if_pos hlarge]
  · show type.socket.stream = m.payload ++ behind
    rw [(hpast.trans hpast').stream, hstream, List.drop_append_of_le_length hle, m.drop_encode]

/-- Messages that fit are taken from the stream one by one. -/
lemma readMessages_fits (front : List Message) {r : Reader}
    (honly : r.socket.arrivals.OnlyInterrupts) (hfits : ∀ m ∈ front, m.Fits r.buffer.length)
    (hstream : r.socket.stream = front.flatMap Message.encode ++ behind) :
    ∃ results r', Settles (fun budget => readMessages budget front.length r)
      (.returned (results, r')) ∧ r'.socket.stream = behind := by
  induction front generalizing r with
  | nil => exact ⟨[], r, Outcome.settles_const _, hstream⟩
  | cons m front ih =>
    rw [List.flatMap_cons, List.append_assoc] at hstream
    obtain ⟨value, r₁, hfirst, -, hrest, harrivals, hbuffer⟩ :=
      readMessage_encode honly (hfits m List.mem_cons_self) hstream
    obtain ⟨results, r', hothers, hend⟩ := ih (harrivals ▸ honly)
      (fun m' hm' => hbuffer ▸ hfits m' (List.mem_cons_of_mem m hm')) hrest
    refine ⟨(value, r₁.buffer) :: results, r', ?_, hend⟩
    exact Outcome.Settles.bind hfirst (Outcome.Settles.bind hothers (Outcome.settles_const _))

end

/-! ## Runs -/

/-- The stream begins with the frame of `m`, one of `frames`. -/
structure AtFrame (frames : List Message) (s : Reader) (m : Message) (behind : List Message) :
    Prop where
  frame : ∃ front, frames = front ++ m :: behind
  stream : s.socket.stream = (m :: behind).flatMap Message.encode

/-- A call that rejects a frame because the record is longer than the buffer leaves the stream in
front of the frame or behind it. -/
def RejectsInFrame (frames : List Message) (s : Reader) : Prop :=
  ∀ m behind s', AtFrame frames s m behind → s.buffer.length < m.payload.length →
    Settles (fun budget => readMessage budget s) (.returned (toSizeT (-1), s')) →
    s'.socket.stream = (m :: behind).flatMap Message.encode ∨
      s'.socket.stream = behind.flatMap Message.encode

/-- There is room for the frame that the stream begins with. -/
def TakesFrame (frames : List Message) (s : Reader) : Prop :=
  ∀ m behind, AtFrame frames s m behind → m.payload.length ≤ s.buffer.length

/-- `p` holds in front of each of any number of calls. -/
def InEveryCall (r : Reader) (p : Reader → Prop) : Prop :=
  ∀ n results s, Settles (fun budget => readMessages budget n r) (.returned (results, s)) → p s

section

variable {frames : List Message} {r s : Reader}

lemma rejectsInFrame_iff_takesFrame (honly : s.socket.arrivals.OnlyInterrupts)
    (hframes : ∀ m ∈ frames, m.payload.length < 2 ^ 32) :
    RejectsInFrame frames s ↔ TakesFrame frames s := by
  constructor
  · intro hrejects m behind hat
    by_contra hlarge
    obtain ⟨front, hfront⟩ := hat.frame
    have hsize : m.payload.length < 2 ^ 32 := by
      refine hframes m ?_
      rw [hfront]
      exact List.mem_append_right _ List.mem_cons_self
    have hstream := hat.stream
    rw [List.flatMap_cons] at hstream
    obtain ⟨s', hreturned, hinside⟩ :=
      readMessage_reject honly (not_le.1 hlarge) hsize hstream
    -- Eight bytes of the frame are gone, and some are left.
    have hlength : s'.socket.stream.length =
        m.payload.length + (behind.flatMap Message.encode).length := by
      rw [hinside, List.length_append]
    rcases hrejects m behind s' hat (not_le.1 hlarge) hreturned with hbefore | hbehind
    · rw [hbefore, List.flatMap_cons, List.length_append, m.length_encode] at hlength
      omega
    · rw [hbehind] at hlength
      omega
  · intro htakes m behind s' hat hlarge
    exact absurd (htakes m behind hat) (not_le.2 hlarge)

/-- In every run of calls over a stream of frames, the calls that reject a frame leave the stream
in frame exactly if no call comes to a frame that is larger than the buffer, which is to say, for
buffers whose length is an `int`, if no frame is. -/
theorem rejectsInFrame_iff (honly : r.socket.arrivals.OnlyInterrupts)
    (hframes : ∀ m ∈ frames, m.payload.length < 2 ^ 32)
    (hstream : r.socket.stream = frames.flatMap Message.encode) :
    (InEveryCall r (RejectsInFrame frames) ↔ InEveryCall r (TakesFrame frames)) ∧
      (r.buffer.length < 2 ^ 31 → (InEveryCall r (RejectsInFrame frames) ↔
        ∀ m ∈ frames, m.payload.length ≤ r.buffer.length)) := by
  have hcalls : InEveryCall r (RejectsInFrame frames) ↔ InEveryCall r (TakesFrame frames) := by
    refine forall_congr' fun n => forall_congr' fun results => forall_congr' fun s =>
      forall_congr' fun hsettles => rejectsInFrame_iff_takesFrame ?_ hframes
    obtain ⟨budget, hbudget⟩ := hsettles.exists
    exact (readMessages_keeps hbudget).arrivals ▸ honly
  refine ⟨hcalls, fun hbuffer => hcalls.trans ⟨fun htakes => ?_, fun hall => ?_⟩⟩
  · by_contra hlarge
    obtain ⟨m, hfind⟩ : ∃ m,
        frames.find? (fun m => r.buffer.length < m.payload.length) = some m := by
      refine Option.isSome_iff_exists.1 (List.find?_isSome.2 ?_)
      simpa using hlarge
    obtain ⟨hm, front, behind, hfront, hfits⟩ := List.find?_eq_some_iff_append.1 hfind
    have hfits' : ∀ m' ∈ front, m'.Fits r.buffer.length := by
      intro m' hm'
      have hle : m'.payload.length ≤ r.buffer.length := by simpa using hfits m' hm'
      exact ⟨hle.trans_lt hbuffer, hle⟩
    rw [hfront, List.flatMap_append] at hstream
    obtain ⟨results, s, hsettles, hrest⟩ := readMessages_fits front honly hfits' hstream
    obtain ⟨budget, hbudget⟩ := hsettles.exists
    have hle := htakes front.length results s hsettles m behind ⟨⟨front, hfront⟩, hrest⟩
    rw [(readMessages_keeps hbudget).length] at hle
    exact absurd hle (by simpa using hm)
  · intro n results s hsettles m behind hat
    obtain ⟨budget, hbudget⟩ := hsettles.exists
    obtain ⟨front, hfront⟩ := hat.frame
    rw [(readMessages_keeps hbudget).length]
    refine hall m ?_
    rw [hfront]
    exact List.mem_append_right _ List.mem_cons_self

end

/-! ## A message nobody has sent -/

/-- One byte a call. -/
def oneByOne : Arrivals where
  answers _ := .brings 0
  goesOn time := ⟨time, le_rfl, by simp⟩

lemma oneByOne_onlyInterrupts : oneByOne.OnlyInterrupts := by
  intro time e h
  exact absurd h (by simp [oneByOne])

/-- Its payload is the frame of another message. -/
def nested : Message := ⟨1, [0, 0, 0, 1, 0, 0, 0, 7, 65]⟩

/-- The frame of `nested` arrives for a buffer of three bytes. -/
def smallReader : Reader := ⟨⟨oneByOne, 0, nested.encode⟩, [0, 0, 0]⟩

/-- The first call rejects the frame of `nested`, and the next one returns what is inside it. -/
theorem not_rejectsInFrame_nested :
    smallReader.socket.stream = [nested].flatMap Message.encode ∧
    ¬ InEveryCall smallReader (RejectsInFrame [nested]) ∧
    ∃ s value s', Settles (fun budget => readMessage budget smallReader)
        (.returned (toSizeT (-1), s)) ∧
      Settles (fun budget => readMessage budget s) (.returned (value, s')) ∧
      Received ⟨7, [65]⟩ (value, s'.buffer) := by
  have hframes : ∀ m ∈ [nested], m.payload.length < 2 ^ 32 := by
    intro m hm
    rw [List.mem_singleton.1 hm]
    decide
  have hstream : smallReader.socket.stream = nested.encode ++ [] := rfl
  refine ⟨rfl, fun hrejects => ?_, ?_⟩
  · have hat : AtFrame [nested] smallReader nested [] := ⟨⟨[], rfl⟩, rfl⟩
    have htakes := (rejectsInFrame_iff_takesFrame oneByOne_onlyInterrupts hframes).1
      (hrejects 0 [] smallReader (Outcome.settles_const _))
    exact absurd (htakes nested [] hat) (by decide)
  · obtain ⟨s, hreturned, hinside⟩ := readMessage_reject (r := smallReader)
      oneByOne_onlyInterrupts (by decide) (by decide) hstream
    obtain ⟨budget, hbudget⟩ := hreturned.exists
    have hkeeps := readMessage_keeps hbudget
    have honly : s.socket.arrivals.OnlyInterrupts := hkeeps.arrivals ▸ oneByOne_onlyInterrupts
    have hfits : Message.Fits ⟨7, [65]⟩ s.buffer.length := by
      rw [hkeeps.length]
      exact ⟨by decide, by decide⟩
    have hinside' : s.socket.stream = Message.encode ⟨7, [65]⟩ ++ [] := hinside.trans (by decide)
    obtain ⟨value, s', hnext, hreceived, -⟩ := readMessage_encode honly hfits hinside'
    exact ⟨s, value, s', hreturned, hnext, hreceived⟩

/-- A buffer of nine bytes is large enough. -/
theorem rejectsInFrame_iff_nine :
    InEveryCall ⟨⟨oneByOne, 0, nested.encode⟩, [0, 0, 0, 0, 0, 0, 0, 0, 0]⟩
      (RejectsInFrame [nested]) := by
  have hframes : ∀ m ∈ [nested], m.payload.length < 2 ^ 32 := by
    intro m hm
    rw [List.mem_singleton.1 hm]
    decide
  refine ((rejectsInFrame_iff (r := ⟨⟨oneByOne, 0, nested.encode⟩, [0, 0, 0, 0, 0, 0, 0, 0, 0]⟩)
    oneByOne_onlyInterrupts hframes rfl).2 (by decide)).2 fun m hm => ?_
  rw [List.mem_singleton.1 hm]
  exact le_rfl

end Yolanda
