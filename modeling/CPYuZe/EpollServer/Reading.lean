import CPYuZe.EpollServer.Server

/-!
# Reading all there is

The loop over `read` should print the bytes it reads, all of them and in their order, and the
descriptor should be closed behind it if the peer is gone or `read` has failed, and only then
(`Drains`).

A chunk is handed to `fmt::print` as a format string that ends with the first zero.  What is printed
for it is never longer than the chunk, and as long as the chunk only if it is the chunk itself
(`fmtPrint_le`); so no chunk can make up for what another one has lost, and the condition has to
hold of every chunk by itself (`Chunk.Plain`).  `done` is true on every way out of the loop, so
nothing is ever closed (`readLoop_done`).
-/

namespace EpollServer

/-- What a trace has printed of the bytes that have been read. -/
def Event.text : Event → List UInt8
  | .printed text => text
  | _ => []

/-- What the loop over `read`, and what follows it, should come to. -/
def Drains (format : List UInt8 → Option (List UInt8)) (fd : ℕ) (chunks : List Chunk)
    (ending : Ending) : Prop :=
  ∃ trace, handleReadable format fd chunks ending = .returned trace ∧
    trace.flatMap Event.text = chunks.flatMap Chunk.bytes ∧
      (.closed fd ∈ trace ↔ ending ≠ .failed .EAGAIN)

/-- A chunk that `fmt::print` prints as it is. -/
structure Chunk.Plain (chunk : Chunk) : Prop where
  room : chunk.bytes.length < readBufLen
  nonzero : 0 ∉ chunk.bytes
  braceless : ∀ c ∈ chunk.bytes, ¬ IsBrace c

/-! ## Format strings -/

section

variable {text out : List UInt8}

lemma formatted_self (h : ∀ c ∈ text, ¬ IsBrace c) : Formatted text text := by
  induction text with
  | nil => exact .nil
  | cons c text ih =>
    obtain ⟨hc, htext⟩ := List.forall_mem_cons.1 h
    exact .literal hc (ih htext)

lemma Formatted.length_le (h : Formatted text out) : out.length ≤ text.length := by
  induction h with
  | nil => exact le_rfl
  | literal hc h ih => exact Nat.succ_le_succ ih
  | escaped hc h ih => exact (Nat.succ_le_succ ih).trans (Nat.le_succ _)

/-- Every pair of braces makes the text shorter. -/
lemma Formatted.braceless (h : Formatted text out) (hlength : text.length ≤ out.length) :
    ∀ c ∈ text, ¬ IsBrace c := by
  induction h with
  | nil => exact fun c hc => absurd hc List.not_mem_nil
  | literal hc h ih => exact List.forall_mem_cons.2 ⟨hc, ih (Nat.le_of_succ_le_succ hlength)⟩
  | escaped hc h ih =>
    have hle := h.length_le
    simp only [List.length_cons] at hlength
    omega

end

section

variable {format : List UInt8 → Option (List UInt8)} {chunk : Chunk} {chunks : List Chunk}
  {ending : Ending} {text : List UInt8} {events : List Event} {done : Bool}

/-- What is printed for a chunk is as long as the chunk only if it is plain. -/
lemma fmtPrint_le (hformat : ∀ text out, format text = some out ↔ Formatted text out)
    (h : fmtPrint format chunk.buf = .returned text) :
    text.length ≤ chunk.bytes.length ∧ (chunk.bytes.length ≤ text.length → chunk.Plain) := by
  unfold fmtPrint at h
  split at h
  · next hzero =>
    split at h
    · next out hout =>
      obtain rfl : out = text := Outcome.returned.inj h
      have hformatted : Formatted (cstr chunk.bytes) out := by
        rw [Chunk.buf, cstr_append_replicate] at hout
        exact (hformat _ _).1 hout
      have hfront := cstr_prefix_self chunk.bytes
      refine ⟨hformatted.length_le.trans hfront.length_le, fun hle => ?_⟩
      have hwhole : cstr chunk.bytes = chunk.bytes :=
        hfront.eq_of_length_le (hle.trans hformatted.length_le)
      have hnonzero : 0 ∉ chunk.bytes := by
        rw [← hwhole]
        exact zero_notMem_cstr _
      have hbraceless := hformatted.braceless (hfront.length_le.trans hle)
      rw [hwhole] at hbraceless
      refine ⟨?_, hnonzero, hbraceless⟩
      -- the zero in the buffer is one of those behind the chunk
      rcases List.mem_append.1 hzero with hmem | hmem
      · exact absurd hmem hnonzero
      · have hpos := (List.mem_replicate.1 hmem).1
        omega
    · next => exact absurd h (by simp)
  · next => exact absurd h (by simp)

lemma fmtPrint_of_plain (hformat : ∀ text out, format text = some out ↔ Formatted text out)
    (h : chunk.Plain) : fmtPrint format chunk.buf = .returned chunk.bytes := by
  have hroom := h.room
  have hzero : 0 ∈ chunk.buf :=
    List.mem_append_right _ (List.mem_replicate.2 ⟨by omega, rfl⟩)
  have hcstr : cstr chunk.buf = chunk.bytes := by
    rw [Chunk.buf, cstr_append_replicate, cstr_eq_self h.nonzero]
  have hprinted : format chunk.bytes = some chunk.bytes :=
    (hformat _ _).2 (formatted_self h.braceless)
  unfold fmtPrint
  rw [if_pos hzero, hcstr, hprinted]

/-! ## The loop -/

/-- The loop behind a chunk. -/
lemma readLoop_cons_eq_returned :
    readLoop format (chunk :: chunks) ending = .returned (events, done) ↔
      ∃ text rest, fmtPrint format chunk.buf = .returned text ∧
        readLoop format chunks ending = .returned (rest, done) ∧
          events = [.threadId, .printed text, .delim] ++ rest := by
  rw [readLoop, Outcome.bind_eq_returned]
  constructor
  · rintro ⟨text, hprint, h⟩
    obtain ⟨⟨rest, done'⟩, hloop, h⟩ := Outcome.bind_eq_returned.1 h
    obtain ⟨rfl, rfl⟩ := Prod.mk.inj (Outcome.returned.inj h)
    exact ⟨text, rest, hprint, hloop, rfl⟩
  · rintro ⟨text, rest, hprint, hloop, rfl⟩
    exact ⟨text, hprint, Outcome.bind_eq_returned.2 ⟨(rest, done), hloop, rfl⟩⟩

/-- However the loop ends, `done` is true behind it; it has closed nothing, and printed nothing of
the bytes. -/
lemma readLoop_nil (format : List UInt8 → Option (List UInt8)) (ending : Ending) :
    ∃ events, readLoop format [] ending = .returned (events, true) ∧
      (∀ fd, .closed fd ∉ events) ∧ events.flatMap Event.text = [] := by
  cases ending with
  | zero => exact ⟨_, rfl, by simp, rfl⟩
  | failed e =>
    refine ⟨_, rfl, fun fd hfd => ?_, ?_⟩
    · split at hfd
      · exact absurd (List.mem_singleton.1 hfd) (by simp)
      · exact absurd hfd List.not_mem_nil
    · split <;> rfl

/-- Whatever the chunks, `done` is true behind the loop, and it has closed nothing. -/
lemma readLoop_done (h : readLoop format chunks ending = .returned (events, done)) :
    done = true ∧ ∀ fd, .closed fd ∉ events := by
  induction chunks generalizing events with
  | nil =>
    obtain ⟨events', hloop, hopen, -⟩ := readLoop_nil format ending
    obtain ⟨rfl, rfl⟩ := Prod.mk.inj (Outcome.returned.inj (h.symm.trans hloop))
    exact ⟨rfl, hopen⟩
  | cons chunk chunks ih =>
    obtain ⟨text, rest, -, hloop, rfl⟩ := readLoop_cons_eq_returned.1 h
    obtain ⟨hdone, hrest⟩ := ih hloop
    refine ⟨hdone, fun fd hfd => ?_⟩
    rcases List.mem_append.1 hfd with hfd | hfd
    · exact absurd hfd (by simp)
    · exact hrest fd hfd

/-- What is printed for the chunks is as long as they are only if they are plain. -/
lemma readLoop_le (hformat : ∀ text out, format text = some out ↔ Formatted text out)
    (h : readLoop format chunks ending = .returned (events, done)) :
    (events.flatMap Event.text).length ≤ (chunks.flatMap Chunk.bytes).length ∧
      ((chunks.flatMap Chunk.bytes).length ≤ (events.flatMap Event.text).length →
        ∀ chunk ∈ chunks, chunk.Plain) := by
  induction chunks generalizing events with
  | nil =>
    obtain ⟨events', hloop, -, htext⟩ := readLoop_nil format ending
    obtain ⟨rfl, -⟩ := Prod.mk.inj (Outcome.returned.inj (h.symm.trans hloop))
    rw [htext]
    exact ⟨le_rfl, fun _ chunk hchunk => absurd hchunk List.not_mem_nil⟩
  | cons chunk chunks ih =>
    obtain ⟨text, rest, hprint, hloop, rfl⟩ := readLoop_cons_eq_returned.1 h
    obtain ⟨htext, hplain⟩ := fmtPrint_le hformat hprint
    obtain ⟨hrest, hrestPlain⟩ := ih hloop
    have hevents : ([Event.threadId, .printed text, .delim] ++ rest).flatMap Event.text =
        text ++ rest.flatMap Event.text := rfl
    rw [hevents, List.flatMap_cons, List.length_append, List.length_append]
    refine ⟨by omega, fun hle => List.forall_mem_cons.2 ⟨?_, ?_⟩⟩
    · apply hplain
      omega
    · apply hrestPlain
      omega

/-- Plain chunks are printed as they are. -/
lemma readLoop_of_plain (hformat : ∀ text out, format text = some out ↔ Formatted text out)
    (h : ∀ chunk ∈ chunks, chunk.Plain) (ending : Ending) :
    ∃ events, readLoop format chunks ending = .returned (events, true) ∧
      events.flatMap Event.text = chunks.flatMap Chunk.bytes := by
  induction chunks with
  | nil =>
    obtain ⟨events, hloop, -, htext⟩ := readLoop_nil format ending
    exact ⟨events, hloop, htext⟩
  | cons chunk chunks ih =>
    obtain ⟨hchunk, hchunks⟩ := List.forall_mem_cons.1 h
    obtain ⟨rest, hloop, hrest⟩ := ih hchunks
    refine ⟨_, readLoop_cons_eq_returned.2
      ⟨_, rest, fmtPrint_of_plain hformat hchunk, hloop, rfl⟩, ?_⟩
    show chunk.bytes ++ rest.flatMap Event.text = _
    rw [hrest, List.flatMap_cons]

/-- What follows the loop does nothing. -/
lemma handleReadable_eq_returned {fd : ℕ} {trace : List Event} :
    handleReadable format fd chunks ending = .returned trace ↔
      readLoop format chunks ending = .returned (trace, true) := by
  rw [handleReadable, Outcome.bind_eq_returned]
  constructor
  · rintro ⟨⟨events, done⟩, hloop, h⟩
    obtain ⟨rfl, -⟩ := readLoop_done hloop
    obtain rfl : events = trace := Outcome.returned.inj h
    exact hloop
  · exact fun hloop => ⟨(trace, true), hloop, rfl⟩

end

/-- The bytes that are read are printed, and the descriptor is closed when it should be, exactly if
no chunk fills the buffer or contains a zero or a brace, and the loop has ended because there was
nothing more to read. -/
theorem drains_iff {format : List UInt8 → Option (List UInt8)}
    (hformat : ∀ text out, format text = some out ↔ Formatted text out) (fd : ℕ)
    (chunks : List Chunk) (ending : Ending) :
    Drains format fd chunks ending ↔
      (∀ chunk ∈ chunks, chunk.Plain) ∧ ending = .failed .EAGAIN := by
  constructor
  · rintro ⟨trace, htrace, htext, hclosed⟩
    have hloop := handleReadable_eq_returned.1 htrace
    refine ⟨(readLoop_le hformat hloop).2 ?_, ?_⟩
    · rw [htext]
    · by_contra hending
      exact (readLoop_done hloop).2 fd (hclosed.2 hending)
  · rintro ⟨hplain, rfl⟩
    obtain ⟨events, hloop, htext⟩ := readLoop_of_plain hformat hplain (.failed .EAGAIN)
    refine ⟨events, handleReadable_eq_returned.2 hloop, htext, fun hclosed => ?_, fun h => ?_⟩
    · exact absurd hclosed ((readLoop_done hloop).2 fd)
    · exact absurd rfl h

/-! ## A formatter -/

/-- What `fmt` makes of a format string without arguments. -/
def format : List UInt8 → Option (List UInt8)
  | [] => some []
  | [c] => if IsBrace c then none else some [c]
  | c :: d :: text =>
    if IsBrace c then
      if c = d then (format text).map (c :: ·) else none
    else (format (d :: text)).map (c :: ·)

lemma format_literal {c : UInt8} (hc : ¬ IsBrace c) (text : List UInt8) :
    format (c :: text) = (format text).map (c :: ·) := by
  cases text with
  | nil => exact if_neg hc
  | cons d text => rw [format, if_neg hc]

lemma format_escaped {c : UInt8} (hc : IsBrace c) (text : List UInt8) :
    format (c :: c :: text) = (format text).map (c :: ·) := by
  rw [format, if_pos hc, if_pos rfl]

lemma format_eq_some_iff (text out : List UInt8) :
    format text = some out ↔ Formatted text out := by
  constructor
  · intro h
    induction text using format.induct generalizing out with
    | case1 =>
      obtain rfl : [] = out := Option.some.inj h
      exact .nil
    | case2 c hc =>
      rw [format, if_pos hc] at h
      exact absurd h (by simp)
    | case3 c hc =>
      rw [format, if_neg hc] at h
      obtain rfl : [c] = out := Option.some.inj h
      exact .literal hc .nil
    | case4 c text hc ih =>
      rw [format_escaped hc] at h
      obtain ⟨out', hout', rfl⟩ := Option.map_eq_some_iff.1 h
      exact .escaped hc (ih out' hout')
    | case5 c d text hc hne =>
      rw [format, if_pos hc, if_neg hne] at h
      exact absurd h (by simp)
    | case6 c d text hc ih =>
      rw [format_literal hc] at h
      obtain ⟨out', hout', rfl⟩ := Option.map_eq_some_iff.1 h
      exact .literal hc (ih out' hout')
  · intro h
    induction h with
    | nil => rfl
    | literal hc h ih => rw [format_literal hc, ih, Option.map_some]
    | escaped hc h ih => rw [format_escaped hc, ih, Option.map_some]

/-- The peer sends two letters and closes the connection: the descriptor stays open.  It sends a
pair of braces: `fmt` throws. -/
theorem not_drains_closed :
    ¬ Drains format 5 [⟨[104, 105], by decide, by decide⟩] .zero ∧
      ¬ Drains format 5 [⟨[123, 125], by decide, by decide⟩] (.failed .EAGAIN) := by
  refine ⟨?_, ?_⟩
  · rintro ⟨trace, htrace, -, hclosed⟩
    obtain rfl := Outcome.returned.inj htrace
    exact absurd (hclosed.2 (by decide)) (by decide)
  · rintro ⟨trace, htrace, -, -⟩
    obtain ⟨text, rest, hprint, -⟩ :=
      readLoop_cons_eq_returned.1 (handleReadable_eq_returned.1 htrace)
    have hthrows : fmtPrint format (Chunk.buf ⟨[123, 125], by decide, by decide⟩) =
        .faulted .formatError := rfl
    rw [hthrows] at hprint
    exact absurd hprint (by simp)

/-- Two letters, and then nothing more. -/
theorem drains_iff_two :
    Drains format 5 [⟨[104, 105], by decide, by decide⟩] (.failed .EAGAIN) := by
  refine (drains_iff format_eq_some_iff 5 _ _).2 ⟨fun chunk hchunk => ?_, rfl⟩
  rw [List.mem_singleton.1 hchunk]
  exact ⟨by decide, by decide, by simp [IsBrace]⟩

end EpollServer
