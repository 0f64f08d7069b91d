import CPYuZe.Yolanda.LineBounds

/-!
# Buffered and unbuffered lines

`readline_2` asks for one byte at a time, so whatever is behind a line is there for the next call.
`readline` asks for blocks, and what is behind the line in its last block is lost, because the
number of bytes left in `read_buffer` is not kept.  Repeated calls of `readline` return the lines of
a stream exactly if no block goes on behind the end of a line (`readsLines_iff_grouped`).

That a block which goes on is never made up for is a matter of counting: a call that returns a line
takes as many bytes from the stream (`ReadlineState.Accounts`), and the lines are all there is.
-/

namespace Yolanda

open Outcome (Settles settles_congr settles_done settles_next)

/-- The call has returned the length of the line, which is in the buffer with a zero behind it. -/
def Returned (line : List UInt8) (result : ℕ × List UInt8) : Prop :=
  result.1 = line.length ∧ line ++ [0] <+: result.2

/-- As many calls as there are lines return these lines. -/
def ReadsLines (call : ℕ → LineReader → Call ((ℕ × List UInt8) × LineReader)) (s : LineReader)
    (lines : List (List UInt8)) : Prop :=
  ∃ results s', Settles (fun budget => Outcome.times (call budget) lines.length s)
      (.returned (results, s')) ∧ List.Forall₂ Returned lines results

/-- A line with its newline, for which there is room in a buffer of `n` bytes with the zero. -/
def FitsLine (n : ℕ) (line : List UInt8) : Prop :=
  ∃ front, line = front ++ [newline] ∧ newline ∉ front ∧ line.length + 1 ≤ n

/-- The blocks are the lines, each of them one or more blocks. -/
def Grouped (blocks : List (StreamBlock UInt8)) (lines : List (List UInt8)) : Prop :=
  ∃ groups : List (List (StreamBlock UInt8)),
    groups.flatten = blocks ∧ groups.map (List.flatMap StreamBlock.letters) = lines

section

variable {call : ℕ → LineReader → Call ((ℕ × List UInt8) × LineReader)} {s s' : LineReader}
  {line : List UInt8} {lines : List (List UInt8)} {result : ℕ × List UInt8}

lemma readsLines_nil : ReadsLines call s [] := ⟨[], s, Outcome.settles_times_zero, .nil⟩

lemma readsLines_cons (hcall : Settles (fun budget => call budget s) (.returned (result, s')))
    (hresult : Returned line result) :
    ReadsLines call s (line :: lines) ↔ ReadsLines call s' lines := by
  constructor
  · rintro ⟨results, s'', hall, hreturned⟩
    obtain ⟨hcons, htail⟩ := hall.times_tail hcall
    rw [hcons] at hreturned
    exact ⟨results.tail, s'', htail, (List.forall₂_cons.1 hreturned).2⟩
  · rintro ⟨results, s'', hall, hreturned⟩
    exact ⟨result :: results, s'', Outcome.settles_times_succ hcall hall, .cons hresult hreturned⟩

/-- The first of the calls has returned the first of the lines. -/
lemma ReadsLines.first (h : ReadsLines call s (line :: lines))
    (hcall : Settles (fun budget => call budget s) (.returned (result, s'))) :
    Returned line result := by
  obtain ⟨results, s'', hall, hreturned⟩ := h
  obtain ⟨hcons, -⟩ := hall.times_tail hcall
  rw [hcons] at hreturned
  exact (List.forall₂_cons.1 hreturned).1

/-- What is in the buffer behind a call that has read a line. -/
lemma returned_line (front buffer : List UInt8) :
    Returned (front ++ [newline])
      (front.length + 1, overwrite buffer 0 (front ++ [newline, 0])) := by
  refine ⟨?_, ?_⟩
  · rw [List.length_append, List.length_singleton]
  · rw [overwrite_zero, List.append_assoc]
    exact List.prefix_append _ _

lemma length_overwrite_line {front buffer : List UInt8}
    (h : (front ++ [newline]).length + 1 ≤ buffer.length) :
    (overwrite buffer 0 (front ++ [newline, 0])).length = buffer.length := by
  refine length_overwrite ?_
  simp only [List.length_append, List.length_cons, List.length_nil] at h ⊢
  omega

end

/-! ## One byte at a time -/

lemma readline2_line (front : List UInt8) (s : Readline2State) {rest : List UInt8}
    (hbytes : Delivery.upToFailure s.incoming = front ++ newline :: rest) (hfront : newline ∉ front)
    (hlength : front.length < s.length)
    (hroom : s.index + front.length + 1 < s.buffer.length) :
    ∃ incoming, Delivery.upToFailure incoming = rest ∧
      Settles (fun budget => Outcome.loop readline2Turn budget s) (.returned
        ⟨s.index + front.length + 1, overwrite s.buffer s.index (front ++ [newline, 0]),
          incoming⟩) := by
  induction front generalizing s with
  | nil =>
    obtain ⟨incoming, hrest, -, hturn⟩ := Readline2State.turn_cons (by omega) hbytes (by omega)
    have hroom' : s.index + 1 < s.buffer.length := hroom
    rw [if_pos rfl, store_of_lt (by rwa [List.length_set]), set_set_eq_overwrite hroom'] at hturn
    exact ⟨incoming, hrest, settles_done hturn⟩
  | cons c front ih =>
    rw [List.length_cons] at hroom hlength
    have hc : c ≠ newline := fun heq => hfront (heq ▸ List.mem_cons_self)
    obtain ⟨incoming, hrest, -, hturn⟩ := Readline2State.turn_cons (by omega) hbytes (by omega)
    rw [if_neg hc] at hturn
    obtain ⟨incoming', hrest', hsettles⟩ := ih
      ⟨incoming, s.buffer.set s.index c, s.index + 1, s.length - 1⟩ hrest
      (fun hmem => hfront (List.mem_cons_of_mem c hmem))
      (show front.length < s.length - 1 by omega)
      (show s.index + 1 + front.length + 1 < (s.buffer.set s.index c).length by
        rw [List.length_set]
        omega)
    refine ⟨incoming', hrest', (settles_next hturn).2 ?_⟩
    rw [overwrite_set (by omega)] at hsettles
    have hvalue : s.index + (c :: front).length + 1 = s.index + 1 + front.length + 1 := by
      rw [List.length_cons]
      omega
    rw [hvalue]
    exact hsettles

lemma readline2_readsLines (lines : List (List UInt8)) (s : LineReader)
    (hlines : ∀ line ∈ lines, FitsLine s.buffer.length line)
    (hstream : Delivery.upToFailure s.incoming = lines.flatten) :
    ReadsLines LineReader.readline2 s lines := by
  induction lines generalizing s with
  | nil => exact readsLines_nil
  | cons line lines ih =>
    obtain ⟨front, rfl, hfront, hfits⟩ := hlines line List.mem_cons_self
    have hroom := hfits
    rw [List.flatten_cons, List.append_assoc] at hstream
    rw [List.length_append, List.length_singleton] at hroom
    obtain ⟨incoming, hrest, hsettles⟩ := readline2_line front
      ⟨s.incoming, s.buffer, 0, s.buffer.length⟩ hstream hfront
      (show front.length < s.buffer.length by omega)
      (show 0 + front.length + 1 < s.buffer.length by omega)
    simp only [Nat.zero_add] at hsettles
    have hcall : Settles (fun budget => LineReader.readline2 budget s) _ :=
      hsettles.bind (Outcome.settles_const _)
    refine (readsLines_cons hcall (returned_line front s.buffer)).2
      (ih _ (fun line' hline' => ?_) hrest)
    show FitsLine (overwrite s.buffer 0 (front ++ [newline, 0])).length line'
    rw [length_overwrite_line hfits]
    exact hlines line' (List.mem_cons_of_mem _ hline')

/-! ## Blocks -/

/-- The first newline is in the last of the blocks, or in what is ahead of them if there is
none. -/
def ReachesNewline : List UInt8 → List (StreamBlock UInt8) → Prop
  | ahead, [] => newline ∈ ahead
  | ahead, b :: blocks => newline ∉ ahead ∧ ReachesNewline b.letters blocks

lemma ReachesNewline.tail {c : UInt8} {ahead : List UInt8} {blocks : List (StreamBlock UInt8)}
    (h : ReachesNewline (c :: ahead) blocks) (hc : c ≠ newline) : ReachesNewline ahead blocks := by
  cases blocks with
  | nil => exact (List.mem_cons.1 h).resolve_left fun heq => hc heq.symm
  | cons b blocks => exact ⟨fun hmem => h.1 (List.mem_cons_of_mem c hmem), h.2⟩

/-- Blocks that end with the first newline. -/
lemma reachesNewline_of_last (blocks : List (StreamBlock UInt8)) {ahead front : List UInt8}
    (h : ahead ++ blocks.flatMap StreamBlock.letters = front ++ [newline])
    (hfront : newline ∉ front) :
    ReachesNewline ahead blocks := by
  induction blocks generalizing ahead front with
  | nil =>
    rw [List.flatMap_nil, List.append_nil] at h
    rw [ReachesNewline, h]
    exact List.mem_append_right _ List.mem_cons_self
  | cons b blocks ih =>
    rw [List.flatMap_cons] at h
    have hne : b.letters ++ blocks.flatMap StreamBlock.letters ≠ [] :=
      List.append_ne_nil_of_left_ne_nil b.letters_ne_nil _
    obtain ⟨last, hlast⟩ : ∃ last, b.letters ++ blocks.flatMap StreamBlock.letters =
        last ++ [newline] := by
      have hend := congrArg List.getLast? h
      rw [List.getLast?_append_of_ne_nil _ hne, List.getLast?_concat] at hend
      exact List.getLast?_eq_some_iff.1 hend
    rw [hlast, ← List.append_assoc] at h
    have hfront' : front = ahead ++ last := (List.append_inj_left' h rfl).symm
    rw [hfront'] at hfront
    exact ⟨fun hmem => hfront (List.mem_append_left _ hmem),
      ih hlast fun hmem => hfront (List.mem_append_right _ hmem)⟩

/-- A stream with a newline in it begins with blocks of which the last one has it. -/
lemma exists_reachesNewline (blocks : List (StreamBlock UInt8)) {ahead : List UInt8}
    (h : newline ∈ ahead ++ blocks.flatMap StreamBlock.letters) :
    ∃ taken rest, blocks = taken ++ rest ∧ ReachesNewline ahead taken := by
  induction blocks generalizing ahead with
  | nil =>
    rw [List.flatMap_nil, List.append_nil] at h
    exact ⟨[], [], rfl, h⟩
  | cons b blocks ih =>
    by_cases hahead : newline ∈ ahead
    · exact ⟨[], b :: blocks, rfl, hahead⟩
    · rw [List.flatMap_cons] at h
      obtain ⟨taken, rest, rfl, hreaches⟩ := ih ((List.mem_append.1 h).resolve_left hahead)
      exact ⟨b :: taken, rest, rfl, hahead, hreaches⟩

namespace ReadlineState

/-- The state behind a byte that is not a newline. -/
lemma Counts.take {s : ReadlineState} (h : s.Counts) (hmore : 1 < s.length) (c : UInt8)
    (static : ReadlineStatic) :
    Counts ⟨s.incoming, static, s.buffer.set s.index c, s.index + 1, s.length - 1,
      s.nleft - 1⟩ := by
  have hroom := h.room
  refine ⟨?_, ?_, ?_⟩
  · show 0 < s.length - 1
    omega
  · show s.index + 1 + (s.length - 1) ≤ (s.buffer.set s.index c).length
    rw [List.length_set]
    omega
  · show (s.buffer.set s.index c).length < 2 ^ 64
    rw [List.length_set]
    exact h.size

/-- The line is read up to its newline, and what is behind the newline in its block is lost.  Every
round takes a byte of the line or a block. -/
lemma settles_line (n : ℕ) (blocks : List (StreamBlock UInt8)) (ahead front : List UInt8)
    (s : ReadlineState) {lost : List UInt8} {rest : Incoming}
    (hn : front.length + blocks.length < n)
    (hsize : ∀ b ∈ blocks, b.letters.length ≤ readBufferSize)
    (h : s.Counts) (hahead : s.Ahead ahead) (hincoming : s.incoming = blocks.map .brings ++ rest)
    (hreaches : ReachesNewline ahead blocks)
    (hbytes : ahead ++ blocks.flatMap StreamBlock.letters = front ++ newline :: lost)
    (hfront : newline ∉ front) (hlength : front.length + 1 < s.length) :
    ∃ static, Settles (fun budget => Outcome.loop readlineTurn budget s) (.returned
      (⟨s.index + front.length + 1, overwrite s.buffer s.index (front ++ [newline, 0]), rest⟩,
        static)) := by
  induction n generalizing blocks ahead front s with
  | zero => exact absurd hn (Nat.not_lt_zero _)
  | succ n ih =>
    have hroom := h.room
    have hpred := h.pred
    cases ahead with
    | cons c ahead =>
      obtain ⟨static, hahead', hturn⟩ := turn_take hahead (by omega) (by omega)
      cases front with
      | nil =>
        obtain ⟨rfl, -⟩ := List.cons_eq_cons.1 hbytes
        have hnil : blocks = [] := by
          cases blocks with
          | nil => rfl
          | cons b blocks => exact absurd List.mem_cons_self hreaches.1
        rw [hnil, List.map_nil, List.nil_append] at hincoming
        rw [if_pos rfl, store_of_lt (by rw [List.length_set]; omega),
          set_set_eq_overwrite (by omega), hincoming] at hturn
        exact ⟨static, settles_done hturn⟩
      | cons c' front =>
        obtain ⟨rfl, hbytes'⟩ := List.cons_eq_cons.1 hbytes
        have hc : c ≠ newline := fun heq => hfront (heq ▸ List.mem_cons_self)
        rw [List.length_cons] at hn hlength
        rw [if_neg hc, hpred] at hturn
        obtain ⟨static', hsettles⟩ := ih blocks ahead front _ (by omega) hsize
          (h.take (by omega) c static) (hahead' _ _ _ _) hincoming (hreaches.tail hc) hbytes'
          (fun hmem => hfront (List.mem_cons_of_mem c hmem))
          (show front.length + 1 < s.length - 1 by omega)
        refine ⟨static', (settles_next hturn).2 ?_⟩
        rw [overwrite_set (by omega)] at hsettles
        have hvalue : s.index + (c :: front).length + 1 = s.index + 1 + front.length + 1 := by
          rw [List.length_cons]
          omega
        rw [hvalue]
        exact hsettles
    | nil =>
      cases blocks with
      | nil => exact absurd hreaches List.not_mem_nil
      | cons b blocks =>
        have hrecv : Delivery.recv readBufferSize s.incoming =
            (.ok (b.first :: b.others), blocks.map .brings ++ rest) := by
          rw [hincoming]
          exact Delivery.recv_brings (hsize b List.mem_cons_self) _
        rw [List.length_cons] at hn
        obtain ⟨static, hsettles⟩ := ih blocks b.letters front
          (s.fill b.letters (blocks.map .brings ++ rest)) (by omega)
          (fun b' hb' => hsize b' (List.mem_cons_of_mem b hb')) ⟨h.pos, h.room, h.size⟩
          (ahead_fill s _ _) rfl hreaches.2 hbytes hfront hlength
        exact ⟨static, (settles_congr (turn_fill hahead (by omega) hrecv)).2 hsettles⟩

end ReadlineState

/-- A call of `readline` from where a line begins. -/
lemma readline_line {s : LineReader} {taken : List (StreamBlock UInt8)} {rest : Incoming}
    {front lost : List UInt8} (hsize : ∀ b ∈ taken, b.letters.length ≤ readBufferSize)
    (hbuffer : s.buffer.length < 2 ^ 64) (hincoming : s.incoming = taken.map .brings ++ rest)
    (hreaches : ReachesNewline [] taken)
    (hbytes : taken.flatMap StreamBlock.letters = front ++ newline :: lost)
    (hfront : newline ∉ front)
    (hfits : (front ++ [newline]).length + 1 ≤ s.buffer.length) :
    ∃ static, Settles (fun budget => LineReader.readline budget s) (.returned
      ((front.length + 1, overwrite s.buffer 0 (front ++ [newline, 0])),
        ⟨static, rest, overwrite s.buffer 0 (front ++ [newline, 0])⟩)) := by
  rw [List.length_append, List.length_singleton] at hfits
  have hcounts : ReadlineState.Counts ⟨s.incoming, s.static, s.buffer, 0, s.buffer.length, 0⟩ :=
    ⟨show 0 < s.buffer.length by omega, show 0 + s.buffer.length ≤ s.buffer.length by omega,
      hbuffer⟩
  obtain ⟨static, hsettles⟩ := ReadlineState.settles_line _ taken [] front _ (Nat.lt_succ_self _)
    hsize hcounts ⟨rfl, fun hne => absurd rfl hne⟩ hincoming hreaches hbytes hfront
    (show front.length + 1 < s.buffer.length by omega)
  simp only [Nat.zero_add] at hsettles
  exact ⟨static, hsettles.bind (Outcome.settles_const _)⟩

/-- Blocks that are lines are read line by line. -/
lemma readsLines_of_grouped (lines : List (List UInt8)) (s : LineReader)
    {blocks : List (StreamBlock UInt8)} (hsize : ∀ b ∈ blocks, b.letters.length ≤ readBufferSize)
    (hbuffer : s.buffer.length < 2 ^ 64) (hincoming : s.incoming = blocks.map .brings)
    (hlines : ∀ line ∈ lines, FitsLine s.buffer.length line) (h : Grouped blocks lines) :
    ReadsLines LineReader.readline s lines := by
  induction lines generalizing s blocks with
  | nil => exact readsLines_nil
  | cons line lines ih =>
    obtain ⟨groups, rfl, hgroups⟩ := h
    obtain ⟨group, groups, rfl, hgroup, hgroups'⟩ := List.map_eq_cons_iff.1 hgroups
    obtain ⟨front, rfl, hfront, hfits⟩ := hlines line List.mem_cons_self
    rw [List.flatten_cons] at hsize
    rw [List.flatten_cons, List.map_append] at hincoming
    have hreaches : ReachesNewline [] group := reachesNewline_of_last group hgroup hfront
    obtain ⟨static, hcall⟩ := readline_line
      (fun b hb => hsize b (List.mem_append_left _ hb)) hbuffer hincoming hreaches hgroup hfront
      hfits
    have hlength := length_overwrite_line hfits
    refine (readsLines_cons hcall (returned_line front s.buffer)).2
      (ih _ (fun b hb => hsize b (List.mem_append_right _ hb)) ?_ rfl (fun line' hline' => ?_)
        ⟨groups, rfl, hgroups'⟩)
    · show (overwrite s.buffer 0 (front ++ [newline, 0])).length < 2 ^ 64
      rw [hlength]
      exact hbuffer
    · show FitsLine (overwrite s.buffer 0 (front ++ [newline, 0])).length line'
      rw [hlength]
      exact hlines line' (List.mem_cons_of_mem _ hline')

/-! ## What is lost -/

/-- Calls that return lines have taken as many bytes from what was to come. -/
lemma length_le_of_readsLines (lines : List (List UInt8)) (s : LineReader)
    (hbuffer : s.buffer.length < 2 ^ 64)
    (hlines : ∀ line ∈ lines, FitsLine s.buffer.length line)
    (h : ReadsLines LineReader.readline s lines) :
    lines.flatten.length ≤ (Delivery.arriving s.incoming).length := by
  induction lines generalizing s with
  | nil => exact Nat.zero_le _
  | cons line lines ih =>
    obtain ⟨front, rfl, -, hfits⟩ := hlines line List.mem_cons_self
    have hpos : s.buffer ≠ [] := List.ne_nil_of_length_pos (by omega)
    obtain ⟨r, hr, haccounts⟩ := readline_returns s.static s.incoming hpos hbuffer
    have hlength : r.1.buffer.length = s.buffer.length := haccounts.buffer
    have hcall : Settles (fun budget => LineReader.readline budget s) _ :=
      hr.bind (Outcome.settles_const _)
    have hfirst := h.first hcall
    have hrest : lines.flatten.length ≤ (Delivery.arriving r.1.incoming).length := by
      refine ih _ (hlength ▸ hbuffer) (fun line' hline' => ?_)
        ((readsLines_cons hcall hfirst).1 h)
      show FitsLine r.1.buffer.length line'
      rw [hlength]
      exact hlines line' (List.mem_cons_of_mem _ hline')
    have hvalue : r.1.value = (front ++ [newline]).length := hfirst.1
    have htaken : r.1.value + (Delivery.arriving r.1.incoming).length ≤
        0 + 0 + (Delivery.arriving s.incoming).length := by
      have hminus : toSizeT (-1) = 2 ^ 64 - 1 := by decide
      rw [List.length_append, List.length_singleton] at hvalue hfits
      exact (haccounts.value.resolve_left (by omega)).resolve_left (by omega)
    rw [List.flatten_cons, List.length_append, ← hvalue]
    omega

lemma arriving_map (blocks : List (StreamBlock UInt8)) :
    Delivery.arriving (blocks.map .brings : Incoming) = blocks.flatMap StreamBlock.letters := by
  have h : Delivery.arriving (blocks.map .brings ++ [] : Incoming) =
      blocks.flatMap StreamBlock.letters ++ [] := Delivery.before_map_append blocks []
  rwa [List.append_nil, List.append_nil] at h

lemma ReachesNewline.mem {ahead : List UInt8} {blocks : List (StreamBlock UInt8)}
    (h : ReachesNewline ahead blocks) : newline ∈ ahead ++ blocks.flatMap StreamBlock.letters := by
  induction blocks generalizing ahead with
  | nil => exact List.mem_append_left _ h
  | cons b blocks ih => exact List.mem_append_right _ (ih h.2)

/-- The blocks that are read for a line have the line in front. -/
lemma exists_lost {front lines : List UInt8} {taken rest : List (StreamBlock UInt8)}
    (hreaches : ReachesNewline [] taken) (hfront : newline ∉ front)
    (hstream : (taken ++ rest).flatMap StreamBlock.letters = front ++ newline :: lines) :
    ∃ lost, taken.flatMap StreamBlock.letters = front ++ newline :: lost ∧
      lines = lost ++ rest.flatMap StreamBlock.letters := by
  have hmem : newline ∈ taken.flatMap StreamBlock.letters := hreaches.mem
  rw [List.flatMap_append] at hstream
  rcases List.append_eq_append_iff.1 hstream with ⟨back, hback, -⟩ | ⟨behind, htaken, hbehind⟩
  · rw [hback] at hfront
    exact absurd (List.mem_append_left back hmem) hfront
  · cases behind with
    | nil =>
      rw [List.append_nil] at htaken
      exact absurd (htaken ▸ hmem) hfront
    | cons c lost =>
      obtain ⟨rfl, hlines⟩ := List.cons_eq_cons.1 hbehind
      exact ⟨lost, htaken, hlines⟩

/-- If the calls return the lines, nothing is lost in the first of them, nor in the others. -/
lemma grouped_of_readsLines (lines : List (List UInt8)) (s : LineReader)
    {blocks : List (StreamBlock UInt8)} (hsize : ∀ b ∈ blocks, b.letters.length ≤ readBufferSize)
    (hbuffer : s.buffer.length < 2 ^ 64) (hincoming : s.incoming = blocks.map .brings)
    (hlines : ∀ line ∈ lines, FitsLine s.buffer.length line)
    (hstream : blocks.flatMap StreamBlock.letters = lines.flatten)
    (h : ReadsLines LineReader.readline s lines) : Grouped blocks lines := by
  induction lines generalizing s blocks with
  | nil =>
    cases blocks with
    | nil => exact ⟨[], rfl, rfl⟩
    | cons b blocks =>
      exact absurd hstream (List.append_ne_nil_of_left_ne_nil b.letters_ne_nil _)
  | cons line lines ih =>
    obtain ⟨front, rfl, hfront, hfits⟩ := hlines line List.mem_cons_self
    rw [List.flatten_cons, List.append_assoc, List.singleton_append] at hstream
    have hmem : newline ∈ [] ++ blocks.flatMap StreamBlock.letters := by
      rw [List.nil_append, hstream]
      exact List.mem_append_right _ List.mem_cons_self
    obtain ⟨taken, rest, rfl, hreaches⟩ := exists_reachesNewline blocks hmem
    obtain ⟨lost, htaken, hlost⟩ := exists_lost hreaches hfront hstream
    rw [List.map_append] at hincoming
    obtain ⟨static, hcall⟩ := readline_line
      (fun b hb => hsize b (List.mem_append_left _ hb)) hbuffer hincoming hreaches htaken hfront
      hfits
    have hlength := length_overwrite_line hfits
    have hrest := (readsLines_cons hcall (returned_line front s.buffer)).1 h
    have hlines' : ∀ line ∈ lines,
        FitsLine (overwrite s.buffer 0 (front ++ [newline, 0])).length line := by
      intro line hline
      rw [hlength]
      exact hlines line (List.mem_cons_of_mem _ hline)
    -- The calls for the other lines need all the bytes that are left for them.
    have hcount := length_le_of_readsLines lines _ (hlength ▸ hbuffer) hlines' hrest
    have hnothing : lost = [] := by
      rw [arriving_map, hlost, List.length_append] at hcount
      exact List.length_eq_zero_iff.1 (by omega)
    rw [hnothing] at htaken hlost
    obtain ⟨groups, hgroups, hmap⟩ := ih _ (fun b hb => hsize b (List.mem_append_right _ hb))
      (hlength ▸ hbuffer) rfl hlines' hlost.symm hrest
    refine ⟨taken :: groups, ?_, ?_⟩
    · rw [List.flatten_cons, hgroups]
    · rw [List.map_cons, hmap, htaken]

/-- Repeated calls of `readline` and of `readline_2` return the lines of a stream exactly if no
block goes on behind the end of a line. -/
theorem readsLines_iff_grouped (static : ReadlineStatic) {blocks : List (StreamBlock UInt8)}
    {buffer : List UInt8} {lines : List (List UInt8)} (hbuffer : buffer.length < 2 ^ 64)
    (hsize : ∀ b ∈ blocks, b.letters.length ≤ readBufferSize)
    (hlines : ∀ line ∈ lines, FitsLine buffer.length line)
    (hstream : blocks.flatMap StreamBlock.letters = lines.flatten) :
    (ReadsLines LineReader.readline ⟨static, blocks.map .brings, buffer⟩ lines ∧
      ReadsLines LineReader.readline2 ⟨static, blocks.map .brings, buffer⟩ lines) ↔
      Grouped blocks lines := by
  have hunbuffered :
      ReadsLines LineReader.readline2 ⟨static, blocks.map .brings, buffer⟩ lines := by
    refine readline2_readsLines lines _ hlines ?_
    have hbytes : Delivery.upToFailure (blocks.map .brings ++ [] : Incoming) =
        blocks.flatMap StreamBlock.letters ++ [] := Delivery.before_map_append blocks []
    rw [List.append_nil, List.append_nil] at hbytes
    exact hbytes.trans hstream
  rw [and_iff_left hunbuffered]
  exact ⟨grouped_of_readsLines lines _ hsize hbuffer rfl hlines hstream,
    readsLines_of_grouped lines _ hsize hbuffer rfl hlines⟩

/-- Two lines in one block. -/
def twoLines : StreamBlock UInt8 := ⟨97, [10, 98, 10]⟩

lemma not_grouped_twoLines : ¬ Grouped [twoLines] [[97, 10], [98, 10]] := by
  rintro ⟨groups, hflatten, hmap⟩
  obtain ⟨first, groups, rfl, hfirst, hmap'⟩ := List.map_eq_cons_iff.1 hmap
  obtain ⟨second, groups, rfl, hsecond, -⟩ := List.map_eq_cons_iff.1 hmap'
  rw [List.flatten_cons, List.flatten_cons] at hflatten
  cases first with
  | nil => exact absurd hfirst (by decide)
  | cons b first =>
    obtain ⟨rfl, hnil⟩ := List.cons_eq_cons.1 hflatten
    have hnone : second = [] := (List.append_eq_nil_iff.1 (List.append_eq_nil_iff.1 hnil).2).1
    rw [hnone] at hsecond
    exact absurd hsecond (by decide)

lemma fitsLine_twoLines :
    ∀ line ∈ [[(97 : UInt8), 10], [98, 10]], FitsLine [(0 : UInt8), 0, 0].length line := by
  intro line hline
  rcases List.mem_pair.1 hline with rfl | rfl
  · exact ⟨[97], rfl, by decide, le_rfl⟩
  · exact ⟨[98], rfl, by decide, le_rfl⟩

/-- The lines `a` and `b` arrive in one block, and the second one is not read. -/
theorem not_readsLines_twoLines :
    ¬ ReadsLines LineReader.readline ⟨⟨none, []⟩, [.brings twoLines], [0, 0, 0]⟩
      [[97, 10], [98, 10]] := by
  intro h
  have hsize : ∀ b ∈ [twoLines], b.letters.length ≤ readBufferSize := by
    decide
  exact not_grouped_twoLines (grouped_of_readsLines _ ⟨⟨none, []⟩, [.brings twoLines], [0, 0, 0]⟩
    hsize (by simp) rfl fitsLine_twoLines rfl h)

/-- The lines `a` and `b` arrive in three blocks, and no block has bytes of both. -/
theorem readsLines_iff_grouped_three :
    ReadsLines LineReader.readline
      ⟨⟨none, []⟩, [.brings ⟨97, []⟩, .brings ⟨10, []⟩, .brings ⟨98, [10]⟩], [0, 0, 0]⟩
      [[97, 10], [98, 10]] := by
  have hsize : ∀ b ∈ [(⟨97, []⟩ : StreamBlock UInt8), ⟨10, []⟩, ⟨98, [10]⟩],
      b.letters.length ≤ readBufferSize := by
    decide
  have hgrouped : Grouped [⟨97, []⟩, ⟨10, []⟩, ⟨98, [10]⟩] [[97, 10], [98, 10]] :=
    ⟨[[⟨97, []⟩, ⟨10, []⟩], [⟨98, [10]⟩]], rfl, rfl⟩
  exact ((readsLines_iff_grouped ⟨none, []⟩ (by simp) hsize fitsLine_twoLines rfl).2 hgrouped).1

end Yolanda
