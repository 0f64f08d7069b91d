import CPYuZe.Library.Fifo
import CPYuZe.Yolanda.Buffer

/-!
# The buffer is a byte queue

`struct buffer` refines a first-in-first-out queue of bytes.  `BufferOp` lists what the rest of
the library does to a buffer, `bufferStep` does it by the functions of `buffer.c`, and
`fifoStep` does it to the abstract queue.  `bufferStep_refines` is the step of the simulation;
`bufferRun_refines` carries it through a sequence of any length, whichever of its three ways
`make_room` goes at each step.

An operation is allowed (`Allowed`) when no allocation fails, no size reaches the range where
`int` ends, a read delivers no more than the two vectors hold, and no more is consumed than is
there.
-/

namespace Yolanda

/-- What is done to a buffer. -/
inductive BufferOp
  | append (data : Option (List UInt8))
  | appendChar (c : UInt8)
  | appendString (s : Option (List UInt8))
  | socketRead (result : ReadvResult)
  | consume (n : ℕ)

namespace BufferOp

/-- The bytes an operation puts in. -/
def puts : BufferOp → List UInt8
  | append data => data.getD []
  | appendChar c => [c]
  | appendString s => (s.map cstr).getD []
  | socketRead (.ok bytes) => bytes
  | socketRead (.error _) => []
  | consume _ => []

/-- The number of bytes an operation takes out. -/
def takes : BufferOp → ℕ
  | consume n => n
  | _ => 0

/-- The number of bytes `make_room` is asked for. -/
def asks (b : Buffer) : BufferOp → ℕ
  | socketRead (.ok bytes) => bytes.length - bufferWriteableSize b
  | op => op.puts.length

end BufferOp

/-- An operation, with what the allocator answers in it. -/
def bufferStep (b : Buffer) : BufferOp × Realloc → Call Buffer
  | (.append data, r) => bufferAppend r b data
  | (.appendChar c, r) => bufferAppendChar r b c
  | (.appendString s, r) => bufferAppendString r b s
  | (.socketRead result, r) => do
    let (b, _) ← bufferSocketRead r b result
    pure b
  | (.consume n, _) => .returned (b.advance n)

def fifoStep (q : Fifo UInt8) (op : BufferOp) : Fifo UInt8 :=
  (q.push op.puts).pop op.takes

structure Allowed (b : Buffer) (o : BufferOp × Realloc) : Prop where
  alloc : ∀ n < 2 ^ 31, (o.2 n).isSome = true
  size : NeedsGrowth b o.1.puts.length → b.totalSize + o.1.asks b < 2 ^ 31
  readv : ∀ bytes, o.1 = .socketRead (.ok bytes) →
    bytes.length ≤ bufferWriteableSize b + initBufferSize
  consume : o.1.takes ≤ bufferReadableSize b

/-- Every operation of a sequence is allowed when its turn comes. -/
def AllowedRun : Buffer → List (BufferOp × Realloc) → Prop :=
  Outcome.Throughout bufferStep Allowed

/-- The buffer holds what is inside the queue, and its size is an `int`. -/
structure Refines (b : Buffer) (q : Fifo UInt8) : Prop where
  wf : b.Wf
  content_eq : b.content = q.inside
  total_lt : b.totalSize < 2 ^ 31

lemma bufferNew_refines (fresh : ℕ → UInt8) : Refines (bufferNew fresh) Fifo.empty :=
  ⟨bufferNew_wf fresh, bufferNew_content fresh, bufferNew_total_lt fresh⟩

lemma Refines.of_appended {b b' : Buffer} {q : Fifo UInt8} {op : BufferOp} (h : Refines b q)
    (happ : Appended b b' op.puts) (htotal : b'.totalSize < 2 ^ 31) (htakes : op.takes = 0) :
    Refines b' (fifoStep q op) := by
  refine ⟨happ.wf, ?_, htotal⟩
  simp [fifoStep, Fifo.push, Fifo.pop, htakes, happ.content_eq, h.content_eq]

/-- Data that needs no growth, or a growth that is allowed, has a size that is an `int`. -/
lemma Refines.puts_lt {b : Buffer} {q : Fifo UInt8} {o : BufferOp × Realloc} (h : Refines b q)
    (ha : Allowed b o) (hasks : o.1.asks b = o.1.puts.length) : o.1.puts.length < 2 ^ 31 := by
  by_contra hle
  have hfree := h.wf.free_le
  have htotal := h.total_lt
  have hneeds : NeedsGrowth b o.1.puts.length := by
    show b.sizes.front + b.sizes.room < o.1.puts.length
    exact (hfree.trans_lt htotal).trans_le (not_lt.1 hle)
  have := ha.size hneeds
  omega

/-- An operation that appends `bytes` returns, and appends them. -/
lemma append_refines {b : Buffer} {q : Fifo UInt8} {o : BufferOp × Realloc} (h : Refines b q)
    (ha : Allowed b o) (hasks : o.1.asks b = o.1.puts.length) (htakes : o.1.takes = 0) :
    ∃ b', bufferAppend o.2 b (some o.1.puts) = .returned b' ∧ Refines b' (fifoStep q o.1) := by
  have hfits : b.sizes.Fits o.1.puts.length := fun hneeds => hasks ▸ ha.size hneeds
  have hgrow : CanGrow o.2 b o.1.puts.length := by
    intro hneeds
    have hlt : b.totalSize + o.1.puts.length < 2 ^ 31 := hfits hneeds
    rw [o.2.ofInt_of_lt hlt]
    exact ha.alloc _ hlt
  obtain ⟨b', hb', happ⟩ := bufferAppend_returns h.wf hgrow
  have hsizes := bufferAppend_sizes h.wf hgrow hb'
  have htotal : b'.sizes.total < 2 ^ 31 := hsizes ▸ hfits.append_total_lt h.total_lt
  exact ⟨b', hb', h.of_appended happ htotal htakes⟩

/-- An operation that puts nothing in and takes nothing out changes nothing. -/
lemma Refines.of_idle {b : Buffer} {q : Fifo UInt8} {op : BufferOp} (h : Refines b q)
    (hputs : op.puts = []) (htakes : op.takes = 0) : Refines b (fifoStep q op) :=
  h.of_appended ⟨h.wf, by rw [hputs, List.append_nil]⟩ h.total_lt htakes

theorem bufferStep_refines {b : Buffer} {q : Fifo UInt8} {o : BufferOp × Realloc}
    (h : Refines b q) (ha : Allowed b o) :
    ∃ b', bufferStep b o = .returned b' ∧ Refines b' (fifoStep q o.1) := by
  obtain ⟨op, r⟩ := o
  cases op with
  | append data =>
    cases data with
    | none => exact ⟨b, rfl, h.of_idle rfl rfl⟩
    | some bytes => exact append_refines (o := (.append (some bytes), r)) h ha rfl rfl
  | appendChar c =>
    rw [bufferStep, bufferAppendChar_eq]
    exact append_refines (o := (.appendChar c, r)) h ha rfl rfl
  | appendString s =>
    cases s with
    | none => exact ⟨b, rfl, h.of_idle rfl rfl⟩
    | some s =>
      have hlt : (cstr s).length < 2 ^ 31 := h.puts_lt ha rfl
      rw [bufferStep, bufferAppendString, bufferAppendInt_of_lt hlt]
      exact append_refines (o := (.appendString (some s), r)) h ha rfl rfl
  | socketRead result =>
    cases result with
    | error e => exact ⟨b, rfl, h.of_idle rfl rfl⟩
    | ok bytes =>
      have hfits : b.sizes.FitsRead bytes.length := fun hneeds => ha.size hneeds
      have hcan : CanRead r b bytes := by
        intro hneeds
        have hlt : b.totalSize + spill b bytes < 2 ^ 31 := hfits hneeds
        rw [r.ofInt_of_lt hlt]
        exact ha.alloc _ hlt
      obtain ⟨b', hb', happ⟩ := bufferSocketRead_returns h.wf hcan
      have hsizes := bufferSocketRead_sizes h.wf hcan hb'
      have htotal : b'.sizes.total < 2 ^ 31 := hsizes ▸ hfits.read_total_lt h.total_lt
      exact ⟨b', by simp [bufferStep, hb'], h.of_appended happ htotal rfl⟩
  | consume n =>
    refine ⟨b.advance n, rfl, h.wf.advance ha.consume, ?_, h.total_lt⟩
    simp [fifoStep, Fifo.push, Fifo.pop, BufferOp.puts, BufferOp.takes, h.content_eq]

/-- What a step adds to the history of the queue. -/
lemma fifoStep_history {b : Buffer} {q : Fifo UInt8} {o : BufferOp × Realloc}
    (h : Refines b q) (ha : Allowed b o) :
    (fifoStep q o.1).put = q.put ++ o.1.puts ∧
      (fifoStep q o.1).taken.length = q.taken.length + o.1.takes := by
  refine ⟨rfl, ?_⟩
  have hle : o.1.takes ≤ q.inside.length := by
    rw [← h.content_eq, h.wf.length_content]
    exact ha.consume
  simp only [fifoStep, Fifo.push, Fifo.pop, List.length_append, List.length_take]
  omega

/-- A run of allowed operations returns, and its buffer refines a queue with the history of
the run. -/
lemma bufferRun_refines {b : Buffer} {q : Fifo UInt8} {os : List (BufferOp × Realloc)}
    (h : Refines b q) (ha : AllowedRun b os) :
    ∃ b' q', Outcome.run bufferStep b os = .returned b' ∧ Refines b' q' ∧
      q'.put = q.put ++ os.flatMap (fun o => o.1.puts) ∧
      q'.taken.length = q.taken.length + (os.map fun o => o.1.takes).sum := by
  induction os generalizing b q with
  | nil => exact ⟨b, q, rfl, h, by simp, by simp⟩
  | cons o os ih =>
    obtain ⟨b₁, hb₁, h₁⟩ := bufferStep_refines h ha.1
    obtain ⟨b', q', hrun, h', hput, htaken⟩ := ih h₁ (ha.2 b₁ hb₁)
    obtain ⟨hput₁, htaken₁⟩ := fifoStep_history h ha.1
    refine ⟨b', q', ?_, h', ?_, ?_⟩
    · rw [Outcome.run_cons_returned hb₁, hrun]
    · rw [hput, hput₁, List.flatMap_cons, List.append_assoc]
    · rw [htaken, htaken₁, List.map_cons, List.sum_cons, Nat.add_assoc]

/-- After any sequence of allowed operations the indices of the buffer are in order, its
content is every byte put in less those consumed, and `buffer_find_CRLF` finds the first line
end in it. -/
theorem buffer_is_byte_fifo (fresh : ℕ → UInt8) (os : List (BufferOp × Realloc))
    (ha : AllowedRun (bufferNew fresh) os) :
    ∃ b, Outcome.run bufferStep (bufferNew fresh) os = .returned b ∧
      (0 ≤ b.readIndex ∧ b.readIndex ≤ b.writeIndex ∧ b.writeIndex ≤ b.totalSize) ∧
      b.content = (os.flatMap fun o => o.1.puts).drop (os.map fun o => o.1.takes).sum ∧
      FirstOccurrence crlf b.content (bufferFindCRLF b) := by
  obtain ⟨b, q, hrun, h, hput, htaken⟩ := bufferRun_refines (bufferNew_refines fresh) ha
  refine ⟨b, hrun, ⟨Nat.zero_le _, h.wf.read_le, h.wf.write_le⟩, ?_,
    memmem_firstOccurrence _ _⟩
  rw [h.content_eq, q.inside_eq, hput, htaken]
  simp [Fifo.empty]

/-- A line is appended to a new buffer and its first byte consumed. -/
def lineOps : List (BufferOp × Realloc) :=
  [(.append (some [104, 13, 10]), fun _ => some fun _ => 0), (.consume 1, fun _ => some fun _ => 0)]

lemma lineOps_allowed : AllowedRun (bufferNew fun _ => 0) lineOps := by
  have hnew : ¬ NeedsGrowth (bufferNew fun _ => 0) 3 :=
    bufferNew_not_needsGrowth _ (by decide)
  refine ⟨⟨fun _ _ => rfl, fun h => absurd h hnew, nofun, Nat.zero_le _⟩, fun b' hb' => ?_⟩
  have hgrow : CanGrow (fun _ => some fun _ => 0) (bufferNew fun _ => 0)
      ([104, 13, 10] : List UInt8).length := fun h => absurd h hnew
  obtain ⟨b₁, hb₁, happ⟩ := bufferAppend_returns (bufferNew_wf fun _ => 0) hgrow
  obtain rfl : b₁ = b' := Outcome.returned.inj (hb₁.symm.trans hb')
  have hread : bufferReadableSize b₁ = 3 := by
    rw [← happ.wf.length_content, happ.content_eq]
    simp
  refine ⟨⟨fun _ _ => rfl, fun h => ?_, nofun, ?_⟩, fun _ _ => trivial⟩
  · simp [NeedsGrowth, BufferOp.puts] at h
  · simp [BufferOp.takes, hread]

theorem buffer_is_byte_fifo_lineOps :
    ∃ b, Outcome.run bufferStep (bufferNew fun _ => 0) lineOps = .returned b ∧
      (0 ≤ b.readIndex ∧ b.readIndex ≤ b.writeIndex ∧ b.writeIndex ≤ b.totalSize) ∧
      b.content = [13, 10] ∧ FirstOccurrence crlf b.content (bufferFindCRLF b) := by
  simpa [lineOps, BufferOp.puts, BufferOp.takes] using
    buffer_is_byte_fifo (fun _ => 0) lineOps lineOps_allowed

end Yolanda
