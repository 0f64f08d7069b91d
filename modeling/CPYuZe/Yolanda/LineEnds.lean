import CPYuZe.Yolanda.LineReaders

/-!
# Line ends in `read_line`

`read_line` stores a newline for every carriage return and takes the newline behind it from the
stream if there is one.  `normalise` says what becomes of a whole stream, and `Units` which bytes of
it make up a piece of what is stored: a call stores a piece that ends with the first newline of what
is left, or where the buffer is full, or with the stream (`settles_piece`).  A carriage return is
never cut from the newline behind it, so the pieces of a row of calls are together what becomes of
the stream (`readLine_normalises`).
-/

namespace Yolanda

open Outcome (Settles settles_done settles_next)

/-- A carriage return becomes a newline, with the newline behind it if there is one. -/
def normalise : List UInt8 → List UInt8
  | [] => []
  | [c] => [if c = carriageReturn then newline else c]
  | c :: d :: rest =>
    if c = carriageReturn then
      if d = newline then newline :: normalise rest else newline :: normalise (d :: rest)
    else c :: normalise (d :: rest)

/-- The bytes of `stream` in front of `rest` are stored as `piece`. -/
inductive Units (rest : List UInt8) : List UInt8 → List UInt8 → Prop
  | nil : Units rest rest []
  | crlf {stream piece} (h : Units rest stream piece) :
    Units rest (carriageReturn :: newline :: stream) (newline :: piece)
  | cr {stream piece} (hnext : stream.head? ≠ some newline) (h : Units rest stream piece) :
    Units rest (carriageReturn :: stream) (newline :: piece)
  | byte {c stream piece} (hc : c ≠ carriageReturn) (h : Units rest stream piece) :
    Units rest (c :: stream) (c :: piece)

lemma normalise_crlf (rest : List UInt8) :
    normalise (carriageReturn :: newline :: rest) = newline :: normalise rest := by
  rw [normalise, if_pos rfl, if_pos rfl]

lemma normalise_cr {rest : List UInt8} (h : rest.head? ≠ some newline) :
    normalise (carriageReturn :: rest) = newline :: normalise rest := by
  cases rest with
  | nil => rfl
  | cons d rest =>
    have hd : d ≠ newline := fun heq => h (congrArg some heq)
    rw [normalise, if_pos rfl, if_neg hd]

lemma normalise_byte {c : UInt8} (h : c ≠ carriageReturn) (rest : List UInt8) :
    normalise (c :: rest) = c :: normalise rest := by
  cases rest with
  | nil =>
    show [if c = carriageReturn then newline else c] = [c]
    rw [if_neg h]
  | cons d rest => rw [normalise, if_neg h]

namespace Units

variable {stream piece rest : List UInt8}

lemma normalise_eq (h : Units rest stream piece) :
    normalise stream = piece ++ normalise rest := by
  induction h with
  | nil => rfl
  | crlf h ih => rw [normalise_crlf, ih, List.cons_append]
  | cr hnext h ih => rw [normalise_cr hnext, ih, List.cons_append]
  | byte hc h ih => rw [normalise_byte hc, ih, List.cons_append]

/-- The piece is what becomes of the bytes in front of the rest. -/
lemma exists_consumed (h : Units rest stream piece) :
    ∃ consumed, stream = consumed ++ rest ∧ normalise consumed = piece := by
  induction h with
  | nil => exact ⟨[], rfl, rfl⟩
  | crlf h ih =>
    obtain ⟨consumed, rfl, rfl⟩ := ih
    exact ⟨carriageReturn :: newline :: consumed, rfl, normalise_crlf consumed⟩
  | cr hnext h ih =>
    obtain ⟨consumed, rfl, rfl⟩ := ih
    refine ⟨carriageReturn :: consumed, rfl, normalise_cr fun hhead => hnext ?_⟩
    rw [List.head?_append, hhead]
    rfl
  | byte hc h ih =>
    obtain ⟨consumed, rfl, rfl⟩ := ih
    exact ⟨_ :: consumed, rfl, normalise_byte hc consumed⟩

end Units

/-! ## One round -/

lemma incoming_eq_nil {incoming : Incoming} (h : Delivery.Unfailing incoming)
    (hbytes : Delivery.upToFailure incoming = []) : incoming = [] := by
  rcases Delivery.recv_one_nil hbytes with ⟨⟨e, hrecv⟩, -⟩ | hnil
  · exact absurd hrecv (Delivery.recv_ne_error h 1 e)
  · exact hnil

/-- Behind a carriage return a newline is stored, and taken from the stream if it is there. -/
lemma readLineAhead_units {incoming : Incoming} (h : Delivery.Unfailing incoming) :
    ∃ incoming', readLineAhead incoming = (newline, incoming') ∧ Delivery.Unfailing incoming' ∧
      ∀ rest piece, Units rest (Delivery.upToFailure incoming') piece →
        Units rest (carriageReturn :: Delivery.upToFailure incoming) (newline :: piece) := by
  cases hbytes : Delivery.upToFailure incoming with
  | nil =>
    have hnil := incoming_eq_nil h hbytes
    rw [hnil]
    exact ⟨[], rfl, hnil ▸ h, fun rest piece hunits => .cr (by simp) hunits⟩
  | cons c bytes =>
    obtain ⟨incoming', hrecv, hpeek, hrest, hunfailing⟩ := Delivery.recv_one_cons hbytes
    by_cases hc : c = newline
    · subst hc
      refine ⟨incoming', ?_, hunfailing h, fun rest piece hunits => .crlf (hrest ▸ hunits)⟩
      rw [readLineAhead, hpeek]
      simp only [hrecv]
      rfl
    · refine ⟨incoming, ?_, h, fun rest piece hunits => .cr ?_ (hbytes ▸ hunits)⟩
      · rw [readLineAhead, hpeek]
        exact if_neg hc
      · rw [List.head?_cons]
        exact fun heq => hc (Option.some.inj heq)

namespace ReadLineState

variable {s : ReadLineState}

/-- A byte arrives: something of it is stored, and a piece of what is behind it makes a piece of
what is left. -/
lemma turn_units {c : UInt8} {bytes : List UInt8} (h : s.GoesOn)
    (hunfailing : Delivery.Unfailing s.incoming)
    (hbytes : Delivery.upToFailure s.incoming = c :: bytes) :
    ∃ stored incoming, Delivery.Unfailing incoming ∧
      readLineTurn s =
        .returned (.next ⟨incoming, s.buf.set s.i stored, s.i + 1, stored⟩) ∧
      ∀ rest piece, Units rest (Delivery.upToFailure incoming) piece →
        Units rest (Delivery.upToFailure s.incoming) (stored :: piece) := by
  obtain ⟨incoming, hrest, hnone, hturn⟩ := turn_cons h hbytes
  rw [hbytes]
  by_cases hc : c = carriageReturn
  · obtain ⟨incoming', hahead, hnone', hunits⟩ := readLineAhead_units (hnone hunfailing)
    rw [hrest] at hunits
    refine ⟨newline, incoming', hnone', hturn _ (by rw [if_pos hc, hahead]), ?_⟩
    rw [hc]
    exact hunits
  · refine ⟨c, incoming, hnone hunfailing, hturn _ (if_neg hc), fun rest piece hunits => ?_⟩
    rw [hrest] at hunits
    exact .byte hc hunits

end ReadLineState

/-! ## A call -/

namespace ReadLineState

/-- The loop stores a piece of what is left and a zero behind it.  It ends with the piece's first
newline, or where there is room for the zero only, or with the stream. -/
structure Stores (s : ReadLineState) (piece : List UInt8) (r : LineResult) : Prop where
  value : r.value = s.i + piece.length
  buffer : r.buffer = overwrite s.buf s.i (piece ++ [0])
  units : Units (Delivery.upToFailure r.incoming) (Delivery.upToFailure s.incoming) piece
  unfailing : Delivery.Unfailing r.incoming
  room : s.i + piece.length < s.buf.length
  first : newline ∉ piece.dropLast
  ends : r.value + 1 = s.buf.length ∨ piece.getLast? = some newline ∨
    Delivery.upToFailure r.incoming = []

variable {s : ReadLineState}

/-- A byte in front of a piece. -/
lemma Stores.cons {stored : UInt8} {incoming : Incoming} {piece : List UInt8} {r : LineResult}
    (hne : stored ≠ newline) (hroom : s.i < s.buf.length)
    (hunits : ∀ rest piece, Units rest (Delivery.upToFailure incoming) piece →
      Units rest (Delivery.upToFailure s.incoming) (stored :: piece))
    (h : Stores ⟨incoming, s.buf.set s.i stored, s.i + 1, stored⟩ piece r) :
    s.Stores (stored :: piece) r := by
  have hvalue : r.value = s.i + 1 + piece.length := h.value
  have hroom' : s.i + 1 + piece.length < (s.buf.set s.i stored).length := h.room
  have hends : r.value + 1 = (s.buf.set s.i stored).length ∨ _ := h.ends
  rw [List.length_set] at hroom' hends
  refine ⟨?_, ?_, hunits _ _ h.units, h.unfailing, ?_, ?_, ?_⟩
  · rw [hvalue, List.length_cons]
    omega
  · rw [h.buffer]
    exact overwrite_set hroom _
  · rw [List.length_cons]
    omega
  · cases piece with
    | nil => exact List.not_mem_nil
    | cons d piece =>
      intro hmem
      rcases List.mem_cons.1 hmem with heq | hpiece
      · exact hne heq.symm
      · exact h.first hpiece
  · refine hends.imp_right (Or.imp_left fun hlast => ?_)
    cases piece with
    | nil => exact absurd hlast (by simp)
    | cons d piece => exact hlast

/-- The loop ends with a piece, which is empty only if there is no room or nothing left. -/
lemma settles_piece (n : ℕ) (s : ReadLineState) (hlength : s.i + n + 1 = s.buf.length)
    (hunfailing : Delivery.Unfailing s.incoming) (hc : s.c ≠ newline) :
    ∃ piece r, Settles (fun budget => Outcome.loop readLineTurn budget s) (.returned r) ∧
      s.Stores piece r ∧ (piece = [] → n = 0 ∨ Delivery.upToFailure s.incoming = []) := by
  induction n generalizing s with
  | zero =>
    have hstop : ¬ s.GoesOn := fun hgoes => by
      have hlt := hgoes.1
      omega
    refine ⟨[], _, settles_done (turn_done hstop (by omega)), ⟨rfl, ?_, .nil, hunfailing, ?_,
      List.not_mem_nil, .inl hlength⟩, fun _ => .inl rfl⟩
    · exact set_eq_overwrite (by omega) 0
    · exact lt_of_lt_of_eq (Nat.lt_succ_self _) hlength
  | succ n ih =>
    have hgoes : s.GoesOn := ⟨by omega, hc⟩
    have hroom : s.i < s.buf.length := by omega
    cases hbytes : Delivery.upToFailure s.incoming with
    | nil =>
      have hnil := incoming_eq_nil hunfailing hbytes
      have hdone := turn_done (s := { s with incoming := s.incoming.tail, c := newline })
        (fun hagain => hagain.2 rfl) hroom
      have hrest : Delivery.upToFailure s.incoming.tail = [] := by rw [hnil]; rfl
      refine ⟨[], _, (settles_next (turn_nil hgoes hbytes)).2 (settles_done hdone),
        ⟨rfl, ?_, ?_, ?_, hroom, List.not_mem_nil, .inr (.inr hrest)⟩, fun _ => .inr rfl⟩
      · exact set_eq_overwrite hroom 0
      · show Units (Delivery.upToFailure s.incoming.tail) _ []
        rw [hrest, hbytes]
        exact .nil
      · show Delivery.Unfailing s.incoming.tail
        rw [hnil]
        exact fun e => List.not_mem_nil
    | cons c bytes =>
      obtain ⟨stored, incoming, hunfailing', hturn, hunits⟩ :=
        turn_units hgoes hunfailing hbytes
      by_cases hstored : stored = newline
      · subst hstored
        have hroom' : s.i + 1 < s.buf.length := by omega
        have hdone := turn_done (s := ⟨incoming, s.buf.set s.i newline, s.i + 1, newline⟩)
          (fun hagain => hagain.2 rfl) (by rwa [List.length_set])
        refine ⟨[newline], _, (settles_next hturn).2 (settles_done hdone),
          ⟨rfl, set_set_eq_overwrite hroom' newline, hunits _ _ .nil, hunfailing', hroom',
            List.not_mem_nil, .inr (.inl rfl)⟩, fun hnil => absurd hnil (List.cons_ne_nil _ _)⟩
      · obtain ⟨piece, r, hsettles, hstores, -⟩ := ih
          ⟨incoming, s.buf.set s.i stored, s.i + 1, stored⟩
          (show s.i + 1 + n + 1 = (s.buf.set s.i stored).length by
            rw [List.length_set]
            omega)
          hunfailing' hstored
        exact ⟨stored :: piece, r, (settles_next hturn).2 hsettles,
          hstores.cons hstored hroom hunits, fun hnil => absurd hnil (List.cons_ne_nil _ _)⟩

end ReadLineState

/-- What the caller finds in the buffer. -/
def string (result : ℕ × List UInt8) : List UInt8 := result.2.take result.1

/-- What a call of `read_line` does with what is left of the stream. -/
structure ReadsPiece (s : LineReader) (result : ℕ × List UInt8) (s' : LineReader) : Prop where
  atMost : result.1 ≤ s.buffer.length - 1
  length : result.2.length = s.buffer.length
  terminated : result.2[result.1]? = some 0
  /-- It returns at the first newline. -/
  first : newline ∉ (string result).dropLast
  /-- It does not return before a newline, the end of the buffer or the end of the stream. -/
  ends : result.1 = s.buffer.length - 1 ∨ (string result).getLast? = some newline ∨
    Delivery.upToFailure s'.incoming = []
  /-- What it has taken from the stream is what it has stored. -/
  consumes : ∃ consumed, Delivery.upToFailure s.incoming =
    consumed ++ Delivery.upToFailure s'.incoming ∧ normalise consumed = string result
  rest : normalise (Delivery.upToFailure s.incoming) =
    string result ++ normalise (Delivery.upToFailure s'.incoming)
  unfailing : Delivery.Unfailing s'.incoming
  buffer : s'.buffer = result.2

/-- A call of `read_line` reads a piece of the stream, and an empty one only at its end. -/
lemma readLine_readsPiece (s : LineReader) (hunfailing : Delivery.Unfailing s.incoming)
    (hsize : 2 ≤ s.buffer.length) :
    ∃ result s', Settles (fun budget => LineReader.readLine budget s) (.returned (result, s')) ∧
      ReadsPiece s result s' ∧ (result.1 = 0 → Delivery.upToFailure s.incoming = []) := by
  obtain ⟨piece, r, hsettles, hstores, hempty⟩ := ReadLineState.settles_piece
    (s.buffer.length - 1) ⟨s.incoming, s.buffer, 0, 0⟩
    (show 0 + (s.buffer.length - 1) + 1 = s.buffer.length by omega) hunfailing
    (show (0 : UInt8) ≠ newline by decide)
  have hvalue : r.value = piece.length := hstores.value.trans (Nat.zero_add _)
  have hroom : piece.length < s.buffer.length := by
    have hroom' : 0 + piece.length < s.buffer.length := hstores.room
    omega
  have hbuffer : r.buffer = piece ++ [0] ++ s.buffer.drop (piece ++ [0]).length := by
    rw [hstores.buffer]
    exact overwrite_zero _ _
  have hstring : string (r.value, r.buffer) = piece := by
    show r.buffer.take r.value = piece
    rw [hvalue, hbuffer, List.append_assoc]
    exact List.take_left' rfl
  have hlength : r.buffer.length = s.buffer.length := by
    rw [hstores.buffer]
    refine length_overwrite ?_
    rw [List.length_append, List.length_singleton]
    show 0 + (piece.length + 1) ≤ s.buffer.length
    omega
  refine ⟨(r.value, r.buffer), ⟨s.static, r.incoming, r.buffer⟩,
    hsettles.bind (Outcome.settles_const _), ⟨?_, hlength, ?_, ?_, ?_, ?_, ?_,
      hstores.unfailing, rfl⟩, fun hzero => ?_⟩
  · show r.value ≤ s.buffer.length - 1
    omega
  · show r.buffer[r.value]? = some 0
    rw [hvalue, hbuffer, List.append_assoc, List.getElem?_append_right le_rfl, Nat.sub_self]
    rfl
  · rw [hstring]
    exact hstores.first
  · rw [hstring]
    refine hstores.ends.imp_left fun hfull => ?_
    have hfull' : r.value + 1 = s.buffer.length := hfull
    show r.value = s.buffer.length - 1
    omega
  · rw [hstring]
    exact hstores.units.exists_consumed
  · rw [hstring]
    exact hstores.units.normalise_eq
  · have hnil : piece = [] := List.length_eq_zero_iff.1 (hvalue.symm.trans hzero)
    exact (hempty hnil).resolve_left (by omega)

/-- Calls are made until one returns 0, and `strings` are what the others have read. -/
def ReadsUntilZero (s : LineReader) (strings : List (List UInt8)) : Prop :=
  ∃ results last s', Settles
      (fun budget => Outcome.times (LineReader.readLine budget) (strings.length + 1) s)
      (.returned (results ++ [last], s')) ∧
    results.map string = strings ∧ last.1 = 0 ∧ ∀ result ∈ results, result.1 ≠ 0

/-- Every call of `read_line` reads a piece of the stream into the buffer, and the calls up to the
first one that returns 0 read what becomes of the whole stream. -/
theorem readLine_normalises (s : LineReader) (hunfailing : Delivery.Unfailing s.incoming)
    (hsize : 2 ≤ s.buffer.length) :
    (∃ result s', Settles (fun budget => LineReader.readLine budget s) (.returned (result, s')) ∧
      ReadsPiece s result s') ∧
    ∃ strings, ReadsUntilZero s strings ∧
      strings.flatten = normalise (Delivery.upToFailure s.incoming) := by
  constructor
  · obtain ⟨result, s', hsettles, hpiece, -⟩ := readLine_readsPiece s hunfailing hsize
    exact ⟨result, s', hsettles, hpiece⟩
  · induction hn : (Delivery.upToFailure s.incoming).length using Nat.strong_induction_on
      generalizing s with
    | _ n ih =>
      obtain ⟨result, s', hsettles, hpiece, hend⟩ := readLine_readsPiece s hunfailing hsize
      by_cases hzero : result.1 = 0
      · refine ⟨[], ⟨[], result, s', ?_, rfl, hzero, by simp⟩, ?_⟩
        · exact Outcome.settles_times_succ hsettles Outcome.settles_times_zero
        · rw [hend hzero]
          rfl
      · obtain ⟨consumed, hconsumed, hstring⟩ := hpiece.consumes
        have hpos : consumed ≠ [] := by
          rintro rfl
          have hnil : result.2.take result.1 = [] := hstring.symm
          rcases List.take_eq_nil_iff.1 hnil with hzero' | hbuffer
          · exact hzero hzero'
          · have hlength := hpiece.length
            rw [hbuffer, List.length_nil] at hlength
            omega
        have hless : (Delivery.upToFailure s'.incoming).length < n := by
          rw [← hn, hconsumed, List.length_append]
          have := List.length_pos_iff.2 hpos
          omega
        have hsize' : 2 ≤ s'.buffer.length := by
          rw [hpiece.buffer, hpiece.length]
          exact hsize
        obtain ⟨strings, ⟨results, last, s'', hall, hmap, hlast, hnone⟩, hflatten⟩ :=
          ih _ hless s' hpiece.unfailing hsize' rfl
        refine ⟨string result :: strings, ⟨result :: results, last, s'', ?_, ?_, hlast, ?_⟩, ?_⟩
        · exact Outcome.settles_times_succ hsettles hall
        · rw [List.map_cons, hmap]
        · intro result' hmem
          rcases List.mem_cons.1 hmem with rfl | hother
          · exact hzero
          · exact hnone result' hother
        · rw [List.flatten_cons, hflatten, ← hpiece.rest]

/-- The stream ends with a carriage return, and the buffer has room for one byte and the zero. -/
theorem readLine_normalises_two : ∃ strings,
    ReadsUntilZero ⟨⟨none, []⟩, [.brings ⟨97, [13]⟩, .brings ⟨10, [13]⟩], [0, 0]⟩ strings ∧
      strings.flatten = [97, 10, 10] := by
  have hunfailing : Delivery.Unfailing
      ([.brings ⟨97, [13]⟩, .brings ⟨10, [13]⟩] : Incoming) := by
    intro e
    simp
  obtain ⟨strings, hreads, hflatten⟩ := (readLine_normalises
    ⟨⟨none, []⟩, [.brings ⟨97, [13]⟩, .brings ⟨10, [13]⟩], [0, 0]⟩ hunfailing le_rfl).2
  exact ⟨strings, hreads, hflatten.trans rfl⟩

end Yolanda
