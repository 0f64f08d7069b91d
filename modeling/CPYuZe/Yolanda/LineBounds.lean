import CPYuZe.Yolanda.LineReaders

/-!
# Where the line readers store

Each of the three line readers comes back once the stream has ended, and each of them stores past
the caller's buffer in a case of its own (`inside_iff`).  `readline` takes an empty buffer for one
of `SIZE_MAX` bytes and stores the first byte that arrives; `readline_2` fills the buffer with the
line and then stores the zero behind it; `read_line` stores the zero even if the buffer is empty.
-/

namespace Yolanda

open Outcome (Settles settles_congr settles_done settles_faulted settles_next)

/-- The call comes back, and everything it has stored is inside the caller's buffer. -/
def Inside {α : Type} (call : ℕ → Call α) : Prop := ∃ result, Settles call (.returned result)

lemma not_inside {α : Type} {call : ℕ → Call α} {f : Fault} (h : Settles call (.faulted f)) :
    ¬ Inside call := by
  rintro ⟨result, hresult⟩
  exact absurd (h.unique hresult) (by simp)

lemma inside_done {σ α : Type} {body : σ → Call (Outcome.Turn σ α)} {s : σ} {result : α}
    (h : body s = .returned (.done result)) : Inside fun n => Outcome.loop body n s :=
  ⟨result, settles_done h⟩

lemma inside_next {σ α : Type} {body : σ → Call (Outcome.Turn σ α)} {s s' : σ}
    (h : body s = .returned (.next s')) :
    Inside (fun n => Outcome.loop body n s) ↔ Inside fun n => Outcome.loop body n s' :=
  exists_congr fun _ => settles_next h

/-! ## `readline_2` -/

/-- The first line of `bytes` is `n` bytes long with its newline. -/
def FirstLine (bytes : List UInt8) (n : ℕ) : Prop :=
  ∃ line rest, bytes = line ++ newline :: rest ∧ newline ∉ line ∧ line.length + 1 = n

lemma not_firstLine_zero (bytes : List UInt8) : ¬ FirstLine bytes 0 := by
  rintro ⟨line, rest, -, -, hlength⟩
  omega

lemma not_firstLine_nil (n : ℕ) : ¬ FirstLine [] n := by
  rintro ⟨line, rest, hbytes, -⟩
  exact absurd hbytes.symm (List.append_ne_nil_of_right_ne_nil _ (List.cons_ne_nil _ _))

lemma firstLine_newline {bytes : List UInt8} {n : ℕ} :
    FirstLine (newline :: bytes) (n + 1) ↔ n = 0 := by
  constructor
  · rintro ⟨line, rest, hbytes, hline, hlength⟩
    cases line with
    | nil => exact (Nat.succ.inj hlength).symm
    | cons c line =>
      obtain ⟨rfl, -⟩ := List.cons_eq_cons.1 hbytes
      exact absurd List.mem_cons_self hline
  · rintro rfl
    exact ⟨[], bytes, rfl, List.not_mem_nil, rfl⟩

lemma firstLine_cons {c : UInt8} {bytes : List UInt8} {n : ℕ} (hc : c ≠ newline) :
    FirstLine (c :: bytes) (n + 1) ↔ FirstLine bytes n := by
  constructor
  · rintro ⟨line, rest, hbytes, hline, hlength⟩
    cases line with
    | nil => exact absurd (List.cons_eq_cons.1 hbytes).1 hc
    | cons c' line =>
      obtain ⟨rfl, hrest⟩ := List.cons_eq_cons.1 hbytes
      exact ⟨line, rest, hrest, fun hmem => hline (List.mem_cons_of_mem _ hmem), by
        rw [List.length_cons] at hlength
        omega⟩
  · rintro ⟨line, rest, rfl, hline, hlength⟩
    refine ⟨c :: line, rest, rfl, fun hmem => ?_, by rw [List.length_cons, hlength]⟩
    exact (List.mem_cons.1 hmem).elim (fun heq => hc heq.symm) hline

lemma readline2_inside_iff (n : ℕ) (s : Readline2State) (hlength : s.length = n)
    (hroom : s.index + n = s.buffer.length) :
    Inside (fun budget => Outcome.loop readline2Turn budget s) ↔
      ¬ FirstLine (Delivery.upToFailure s.incoming) n := by
  induction n generalizing s with
  | zero =>
    obtain ⟨incoming, hturn⟩ := Readline2State.turn_done (s := s) (.inl hlength)
    exact ⟨fun _ => not_firstLine_zero _, fun _ => inside_done hturn⟩
  | succ n ih =>
    cases hbytes : Delivery.upToFailure s.incoming with
    | nil =>
      obtain ⟨incoming, hturn⟩ := Readline2State.turn_done (.inr hbytes)
      exact ⟨fun _ => not_firstLine_nil _, fun _ => inside_done hturn⟩
    | cons c bytes =>
      obtain ⟨incoming, hrest, -, hturn⟩ :=
        Readline2State.turn_cons (by omega) hbytes (by omega)
      by_cases hc : c = newline
      · rw [if_pos hc] at hturn
        subst hc
        rw [firstLine_newline]
        by_cases hn : n = 0
        · rw [store_of_le (by rw [List.length_set]; omega)] at hturn
          exact ⟨fun hinside => absurd hinside (not_inside (settles_faulted hturn)),
            fun hne => absurd hn hne⟩
        · rw [store_of_lt (by rw [List.length_set]; omega)] at hturn
          exact ⟨fun _ => hn, fun _ => inside_done hturn⟩
      · rw [if_neg hc] at hturn
        rw [inside_next hturn, firstLine_cons hc, ← hrest]
        refine ih _ ?_ ?_
        · show s.length - 1 = n
          omega
        · show s.index + 1 + n = (s.buffer.set s.index c).length
          rw [List.length_set]
          omega

/-! ## `read_line` -/

lemma readLine_inside_of_stopped {s : ReadLineState} (h : ¬ s.GoesOn) (hroom : s.i < s.buf.length) :
    Inside fun n => Outcome.loop readLineTurn n s :=
  inside_done (ReadLineState.turn_done h hroom)

/-- The index stays below the length of the buffer, and every round that goes on increases it or
is the last but one. -/
lemma readLine_inside_of_lt (n : ℕ) (s : ReadLineState) (hlength : s.i + n + 1 = s.buf.length) :
    Inside fun budget => Outcome.loop readLineTurn budget s := by
  induction n generalizing s with
  | zero =>
    apply readLine_inside_of_stopped
    · rintro ⟨hlt, -⟩
      omega
    · omega
  | succ n ih =>
    by_cases hgoes : s.GoesOn
    · cases hbytes : Delivery.upToFailure s.incoming with
      | nil =>
        rw [inside_next (ReadLineState.turn_nil hgoes hbytes)]
        apply readLine_inside_of_stopped
        · exact fun hagain => hagain.2 rfl
        · show s.i < s.buf.length
          omega
      | cons c bytes =>
        obtain ⟨incoming, -, -, hturn⟩ := ReadLineState.turn_cons hgoes hbytes
        rw [inside_next (hturn _ rfl)]
        apply ih
        show s.i + 1 + n + 1 = (s.buf.set s.i _).length
        rw [List.length_set]
        omega
    · exact readLine_inside_of_stopped hgoes (by omega)

lemma readLine_inside_iff (incoming : Incoming) (buffer : List UInt8) :
    Inside (fun budget => readLine budget incoming buffer) ↔ buffer ≠ [] := by
  constructor
  · rintro hinside rfl
    have hstop : ¬ ReadLineState.GoesOn ⟨incoming, [], 0, 0⟩ := by
      rintro ⟨hlt, -⟩
      simp at hlt
    have hturn := ReadLineState.turn_overflow hstop le_rfl
    exact not_inside (settles_faulted hturn) hinside
  · intro hne
    have hpos := List.length_pos_iff.2 hne
    apply readLine_inside_of_lt (buffer.length - 1)
    show 0 + (buffer.length - 1) + 1 = buffer.length
    omega

/-! ## `readline` -/

/-- The errors after which `readline` gives up. -/
def readlineFatal (e : Errno) : Bool := e ≠ .EINTR

lemma toSizeT_pred {n : ℕ} (hpos : 0 < n) (h : n < 2 ^ 64) : toSizeT ((n : ℤ) - 1) = n - 1 := by
  unfold toSizeT
  omega

lemma toSizeT_succ {n : ℕ} (h : n + 1 < 2 ^ 64) : toSizeT ((n : ℤ) + 1) = n + 1 := by
  unfold toSizeT
  omega

namespace ReadlineState

variable {s : ReadlineState}

/-- `length` counts the room that is left, with the place of the zero. -/
structure Counts (s : ReadlineState) : Prop where
  pos : 0 < s.length
  room : s.index + s.length ≤ s.buffer.length
  size : s.buffer.length < 2 ^ 64

lemma Counts.pred (h : s.Counts) : toSizeT (s.length - 1) = s.length - 1 := by
  have hroom := h.room
  have hsize := h.size
  exact toSizeT_pred h.pos (by omega)

/-- There is room for the zero only. -/
lemma turn_full (h : toSizeT (s.length - 1) = 0) :
    readlineTurn s = .returned (.done (⟨toSizeT (-1), s.buffer, s.incoming⟩, s.static)) := by
  rw [readlineTurn]
  exact if_neg (by rw [h]; exact lt_irrefl 0)

/-- A call that is interrupted changes nothing but what is to come. -/
lemma turn_EINTR {rest : Incoming} (h : s.Ahead []) (hlength : 0 < toSizeT (s.length - 1))
    (hincoming : s.incoming = .fails .EINTR :: rest) :
    readlineTurn s = .returned (.next
      { s with incoming := rest, length := toSizeT (toSizeT (s.length - 1) + 1) }) := by
  have hempty : s.nleft ≤ 0 := h.count.le
  rw [readlineTurn]
  simp only [if_pos hlength, if_pos hempty, hincoming, Delivery.recv]
  rfl

lemma turn_end (h : s.Ahead []) (hlength : 0 < toSizeT (s.length - 1))
    (hincoming : s.incoming = []) :
    readlineTurn s = .returned (.done (⟨0, s.buffer, []⟩, s.static)) := by
  have hempty : s.nleft ≤ 0 := h.count.le
  rw [readlineTurn]
  simp only [if_pos hlength, if_pos hempty, hincoming, Delivery.recv]

lemma turn_failed {e : Errno} {rest : Incoming} (h : s.Ahead [])
    (hlength : 0 < toSizeT (s.length - 1)) (hincoming : s.incoming = .fails e :: rest)
    (he : e ≠ .EINTR) :
    readlineTurn s = .returned (.done (⟨toSizeT (-1), s.buffer, rest⟩, s.static)) := by
  have hempty : s.nleft ≤ 0 := h.count.le
  rw [readlineTurn]
  simp only [if_pos hlength, if_pos hempty, hincoming, Delivery.recv, if_neg he]

/-- A block arrives.  It may be longer than `read_buffer`; what is left of it is read later. -/
lemma turn_brings {b : StreamBlock UInt8} {rest : Incoming} (h : s.Ahead [])
    (hlength : 0 < toSizeT (s.length - 1)) (hincoming : s.incoming = .brings b :: rest) :
    readlineTurn s = readlineTurn (s.fill (b.first :: b.others.take 511)
      (Delivery.unread (b.others.drop 511) rest)) := by
  apply turn_fill h hlength
  rw [hincoming]
  rfl

/-- The bytes that are stored or still to come. -/
def potential (s : ReadlineState) : ℕ :=
  s.index + s.nleft.toNat + (Delivery.arriving s.incoming).length

/-- A call that returns the length of a line has taken so many bytes of those to come. -/
structure Accounts (s : ReadlineState) (r : LineResult × ReadlineStatic) : Prop where
  buffer : r.1.buffer.length = s.buffer.length
  value : r.1.value = 0 ∨ r.1.value = toSizeT (-1) ∨
    r.1.value + (Delivery.arriving r.1.incoming).length ≤ s.potential

/-- The loop comes back with an account of what it has taken. -/
def Returns (s : ReadlineState) : Prop :=
  ∃ r, Settles (fun n => Outcome.loop readlineTurn n s) (.returned r) ∧ s.Accounts r

/-- From `s'` there is as much room as from `s`, and not more to take. -/
structure Behind (s s' : ReadlineState) : Prop where
  buffer : s'.buffer.length = s.buffer.length
  potential : s'.potential ≤ s.potential

lemma Behind.accounts {s' : ReadlineState} {r : LineResult × ReadlineStatic} (h : s.Behind s')
    (haccounts : s'.Accounts r) : s.Accounts r :=
  ⟨haccounts.buffer.trans h.buffer,
    haccounts.value.imp_right (Or.imp_right h.potential.trans')⟩

lemma returns_next {s' : ReadlineState} (hturn : readlineTurn s = .returned (.next s'))
    (hbehind : s.Behind s') (h : s'.Returns) : s.Returns := by
  obtain ⟨r, hr, haccounts⟩ := h
  exact ⟨r, (settles_next hturn).2 hr, hbehind.accounts haccounts⟩

lemma returns_congr {s' : ReadlineState} (hturn : readlineTurn s = readlineTurn s')
    (hbehind : s.Behind s') (h : s'.Returns) : s.Returns := by
  obtain ⟨r, hr, haccounts⟩ := h
  exact ⟨r, (settles_congr hturn).2 hr, hbehind.accounts haccounts⟩

/-- There is a byte in `read_buffer`: the round comes back, or it goes on with less room. -/
lemma returns_of_take {c : UInt8} {bytes : List UInt8} (h : s.Counts)
    (hahead : s.Ahead (c :: bytes)) (hmore : 1 < s.length)
    (ih : ∀ s' : ReadlineState, s'.Counts → (∃ rest, s'.Ahead rest) →
      s'.length + s'.incoming.length < s.length + s.incoming.length → s'.Returns) :
    s.Returns := by
  have hroom := h.room
  have hpred := h.pred
  have hleft : s.nleft = bytes.length + 1 := by
    rw [hahead.count, List.length_cons]
    push_cast
    rfl
  obtain ⟨static, hrest, hturn⟩ := turn_take hahead (by omega) (by omega)
  by_cases hc : c = newline
  · rw [if_pos hc, store_of_lt (by rw [List.length_set]; omega)] at hturn
    refine ⟨_, settles_done hturn, ?_, .inr (.inr ?_)⟩
    · rw [List.length_set, List.length_set]
    · show s.index + 1 + (Delivery.arriving s.incoming).length ≤
        s.index + s.nleft.toNat + (Delivery.arriving s.incoming).length
      omega
  · rw [if_neg hc, hpred] at hturn
    refine returns_next hturn ⟨List.length_set, ?_⟩
      (ih _ ⟨?_, ?_, ?_⟩ ⟨bytes, hrest _ _ _ _⟩ ?_)
    · show s.index + 1 + (s.nleft - 1).toNat + (Delivery.arriving s.incoming).length ≤
        s.index + s.nleft.toNat + (Delivery.arriving s.incoming).length
      omega
    · show 0 < s.length - 1
      omega
    · show s.index + 1 + (s.length - 1) ≤ (s.buffer.set s.index c).length
      rw [List.length_set]
      omega
    · show (s.buffer.set s.index c).length < 2 ^ 64
      rw [List.length_set]
      exact h.size
    · show s.length - 1 + s.incoming.length < s.length + s.incoming.length
      omega

/-- The loop comes back.  A round takes from the room or from what is to come. -/
lemma returns_of_counts (n : ℕ) (s : ReadlineState) (h : s.Counts)
    (hahead : ∃ bytes, s.Ahead bytes) (hn : s.length + s.incoming.length < n) : s.Returns := by
  induction n generalizing s with
  | zero => exact absurd hn (Nat.not_lt_zero _)
  | succ n ih =>
    have hpred := h.pred
    have hpos := h.pos
    have hroom := h.room
    have hsize := h.size
    by_cases hfull : s.length = 1
    · exact ⟨_, settles_done (turn_full (by omega)), rfl, .inr (.inl rfl)⟩
    have hmore : 0 < toSizeT (s.length - 1) := by omega
    obtain ⟨bytes, hbytes⟩ := hahead
    cases bytes with
    | cons c bytes =>
      refine returns_of_take h hbytes (by omega) fun s' h' hahead' hless => ?_
      exact ih s' h' hahead' (by omega)
    | nil =>
      have hleft : s.nleft.toNat = 0 := by
        rw [hbytes.count]
        rfl
      cases hincoming : s.incoming with
      | nil => exact ⟨_, settles_done (turn_end hbytes hmore hincoming), rfl, .inl rfl⟩
      | cons d rest =>
        rw [hincoming, List.length_cons] at hn
        cases d with
        | fails e =>
          by_cases he : e = .EINTR
          · subst he
            have hagain : toSizeT (toSizeT (s.length - 1) + 1) = s.length := by
              rw [hpred, toSizeT_succ (by omega)]
              omega
            refine returns_next (turn_EINTR hbytes hmore hincoming) ⟨rfl, ?_⟩
              (ih _ ⟨?_, ?_, hsize⟩ ⟨[], hbytes.count, hbytes.there⟩ ?_)
            · show s.index + s.nleft.toNat + (Delivery.arriving rest).length ≤
                s.index + s.nleft.toNat + (Delivery.arriving s.incoming).length
              rw [hincoming]
              exact le_rfl
            · show 0 < toSizeT (toSizeT (s.length - 1) + 1)
              omega
            · show s.index + toSizeT (toSizeT (s.length - 1) + 1) ≤ s.buffer.length
              omega
            · show toSizeT (toSizeT (s.length - 1) + 1) + rest.length < n
              omega
          · exact ⟨_, settles_done (turn_failed hbytes hmore hincoming he), rfl,
              .inr (.inl rfl)⟩
        | brings b =>
          have hless := Delivery.length_unread_le (b.others.drop 511) rest
          refine returns_congr (turn_brings hbytes hmore hincoming) ⟨rfl, ?_⟩ (returns_of_take
            ⟨hpos, hroom, hsize⟩ (ahead_fill s _ _) (show 1 < s.length by omega)
            fun s' h' hahead' hless' => ?_)
          · have hletters : (b.first :: b.others.take 511).length + (b.others.drop 511).length =
                b.letters.length := by
              rw [List.length_cons, StreamBlock.letters, List.length_cons, Nat.add_right_comm,
                ← List.length_append, List.take_append_drop]
            show s.index + (b.first :: b.others.take 511).length +
                (Delivery.arriving (Delivery.unread (b.others.drop 511) rest)).length ≤
              s.index + s.nleft.toNat + (Delivery.arriving s.incoming).length
            rw [hincoming, Delivery.arriving_unread, Delivery.arriving_brings, List.length_append,
              List.length_append]
            omega
          · have hless'' : s'.length + s'.incoming.length <
              s.length + (Delivery.unread (b.others.drop 511) rest).length := hless'
            exact ih s' h' hahead' (by omega)

end ReadlineState

lemma readline_returns (static : ReadlineStatic) (incoming : Incoming) {buffer : List UInt8}
    (hpos : buffer ≠ []) (h : buffer.length < 2 ^ 64) :
    ReadlineState.Returns ⟨incoming, static, buffer, 0, buffer.length, 0⟩ := by
  refine ReadlineState.returns_of_counts _ _ ⟨List.length_pos_iff.2 hpos, ?_, h⟩
    ⟨[], rfl, fun hne => absurd rfl hne⟩ (Nat.lt_succ_self _)
  show 0 + buffer.length ≤ buffer.length
  omega

/-- `--length` gives `SIZE_MAX`. -/
lemma pos_of_zero {n : ℕ} (h : n = 0) : 0 < toSizeT (n - 1) := by
  rw [h]
  decide

/-- An empty buffer is taken for one of `SIZE_MAX` bytes. -/
lemma readline_inside_nil_iff (s : ReadlineState) (hahead : s.Ahead []) (hbuffer : s.buffer = [])
    (hlength : s.length = 0) :
    Inside (fun budget => Outcome.loop readlineTurn budget s) ↔
      Delivery.before readlineFatal s.incoming = [] := by
  generalize hincoming : s.incoming = incoming
  induction incoming generalizing s with
  | nil =>
    have hturn := ReadlineState.turn_end hahead (pos_of_zero hlength) hincoming
    exact ⟨fun _ => rfl, fun _ => inside_done hturn⟩
  | cons d rest ih =>
    have hmore := pos_of_zero hlength
    cases d with
    | fails e =>
      by_cases he : e = .EINTR
      · subst he
        have hagain : toSizeT (toSizeT (s.length - 1) + 1) = 0 := by
          rw [hlength]
          decide
        have hskip : Delivery.before readlineFatal (.fails .EINTR :: rest) =
            Delivery.before readlineFatal rest := rfl
        rw [inside_next (ReadlineState.turn_EINTR hahead hmore hincoming), hagain, hskip]
        exact ih _ ⟨hahead.count, hahead.there⟩ hbuffer rfl rfl
      · have hfatal : readlineFatal e = true := by simpa [readlineFatal] using he
        have hturn := ReadlineState.turn_failed hahead hmore hincoming he
        exact ⟨fun _ => if_pos hfatal, fun _ => inside_done hturn⟩
    | brings b =>
      have hroom : s.buffer.length ≤ s.index := by
        rw [hbuffer]
        exact Nat.zero_le _
      have hturn : readlineTurn s = .faulted .outOfBounds := by
        rw [ReadlineState.turn_brings hahead hmore hincoming]
        exact ReadlineState.turn_overflow (ReadlineState.ahead_fill s _ _) hmore hroom
      constructor
      · exact fun hinside => absurd hinside (not_inside (settles_faulted hturn))
      · exact fun hnil => absurd hnil (List.append_ne_nil_of_left_ne_nil b.letters_ne_nil _)

lemma readline_inside_iff (static : ReadlineStatic) (incoming : Incoming) {buffer : List UInt8}
    (h : buffer.length < 2 ^ 64) :
    Inside (fun budget => readline budget static incoming buffer) ↔
      (buffer = [] → Delivery.before readlineFatal incoming = []) := by
  have hahead : ReadlineState.Ahead ⟨incoming, static, buffer, 0, buffer.length, 0⟩ [] :=
    ⟨rfl, fun hne => absurd rfl hne⟩
  by_cases hbuffer : buffer = []
  · rw [← readline_inside_nil_iff _ hahead hbuffer (by rw [hbuffer]; rfl)]
    exact ⟨fun hinside _ => hinside, fun hinside => hinside hbuffer⟩
  · obtain ⟨r, hr, -⟩ := readline_returns static incoming hbuffer h
    exact ⟨fun _ hnil => absurd hnil hbuffer, fun _ => ⟨r, hr⟩⟩

/-- `readline` stores inside the caller's buffer and comes back exactly if the buffer is not empty
or no byte arrives, `readline_2` if the first line with its newline is not just as long as the
buffer, and `read_line` if the buffer is not empty. -/
theorem inside_iff (static : ReadlineStatic) (incoming : Incoming) {buffer : List UInt8}
    (h : buffer.length < 2 ^ 64) :
    (Inside (fun budget => readline budget static incoming buffer) ↔
      (buffer = [] → Delivery.before readlineFatal incoming = [])) ∧
    (Inside (fun budget => readline2 budget incoming buffer) ↔
      ¬ FirstLine (Delivery.upToFailure incoming) buffer.length) ∧
    (Inside (fun budget => readLine budget incoming buffer) ↔ buffer ≠ []) := by
  refine ⟨readline_inside_iff static incoming h, ?_, readLine_inside_iff incoming buffer⟩
  exact readline2_inside_iff buffer.length ⟨incoming, buffer, 0, buffer.length⟩ rfl (Nat.zero_add _)

/-- The line `ab` arrives for a buffer of three bytes. -/
theorem not_inside_readline2 : ∃ (incoming : Incoming) (buffer : List UInt8),
    buffer.length = 3 ∧ ¬ Inside fun budget => readline2 budget incoming buffer := by
  refine ⟨[.brings ⟨97, [98, 10]⟩], [0, 0, 0], rfl, fun hinside => ?_⟩
  have hfills : FirstLine (Delivery.upToFailure ([.brings ⟨97, [98, 10]⟩] : Incoming)) 3 :=
    ⟨[97, 98], [], rfl, by decide, rfl⟩
  exact (readline2_inside_iff 3 ⟨_, [0, 0, 0], 0, 3⟩ rfl rfl).1 hinside hfills

/-- The same line for a buffer of four bytes. -/
theorem inside_iff_four : Inside fun budget =>
    readline budget ⟨none, []⟩ [.brings ⟨97, [98, 10]⟩] [0, 0, 0, 0] :=
  (inside_iff ⟨none, []⟩ [.brings ⟨97, [98, 10]⟩] (by decide)).1.2
    fun hnil => absurd hnil (by decide)

end Yolanda
