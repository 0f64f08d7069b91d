import CPYuZe.Library.CString
import CPYuZe.Yolanda.Common

/-!
# The byte buffer

`struct buffer` is an allocation with two indices into it: the bytes between `readIndex` and
`writeIndex` are its content, those behind `writeIndex` are room to write, and those before
`readIndex` have been consumed and can be reclaimed.  The functions below follow `buffer.c`.
`data` is the whole allocation, so a store is checked against its true length and not against
`totalSize`, which is only what the program believes that length to be.

Room is made in one of three ways: there is enough of it, or the content is moved to the
front byte by byte, or the allocation grows.  `CanGrow` says that the third way is open when
it is needed.  Under it `makeRoom` keeps the content and makes the room it was asked for
(`makeRoom_roomy`), and `bufferAppend` adds to the content (`bufferAppend_returns`); without it
`makeRoom` leaves the buffer alone and `bufferAppend` writes past the allocation
(`bufferAppend_faults`).

The sizes of the source are `int`s.  The size asked of `realloc` is a sum of two of them
(`Realloc.ofInt`), and `buffer_append_string` puts the length of its string into one
(`bufferAppendInt`).  Which of the three ways is taken, and what becomes of the sizes, depends on
nothing but sizes (`BufferSizes`), so what can be appended one after the other can be told from
the lengths (`SizesFit`).
-/

namespace Yolanda

structure Buffer where
  data : List UInt8
  readIndex : ℕ
  writeIndex : ℕ
  totalSize : ℕ
  deriving DecidableEq, Repr

def initBufferSize : ℕ := 65536

def crlf : List UInt8 := [13, 10]

/-- A new buffer.  `fresh` is what the allocation holds before anything is written to it. -/
def bufferNew (fresh : ℕ → UInt8) : Buffer where
  data := (List.range initBufferSize).map fresh
  readIndex := 0
  writeIndex := 0
  totalSize := initBufferSize

def bufferWriteableSize (b : Buffer) : ℕ := b.totalSize - b.writeIndex

def bufferReadableSize (b : Buffer) : ℕ := b.writeIndex - b.readIndex

def bufferFrontSpareSize (b : Buffer) : ℕ := b.readIndex

/-- `memcpy(data + i, bytes, …)` into the allocation `data`. -/
def memcpy (data : List UInt8) (i : ℕ) (bytes : List UInt8) : Call (List UInt8) :=
  if i + bytes.length ≤ data.length then
    .returned (data.take i ++ bytes ++ data.drop (i + bytes.length))
  else .faulted .outOfBounds

/-- The first `i` turns of the loop that moves the content to the front, one byte a turn. -/
def copyToFront (data : List UInt8) (readIndex : ℕ) : ℕ → List UInt8
  | 0 => data
  | i + 1 =>
    let moved := copyToFront data readIndex i
    moved.set i (moved.getD (readIndex + i) 0)

def makeRoom (r : Realloc) (b : Buffer) (size : ℕ) : Buffer :=
  if bufferWriteableSize b ≥ size then b
  else if bufferFrontSpareSize b + bufferWriteableSize b ≥ size then
    let readable := bufferReadableSize b
    { b with
      data := copyToFront b.data b.readIndex readable
      readIndex := 0
      writeIndex := readable }
  else
    match r.ofInt (b.totalSize + size) with
    | none => b
    | some fresh =>
      { b with
        data := b.data ++ (List.range size).map fresh
        totalSize := b.totalSize + size }

/-- `data` is `NULL` or the bytes `data[0], …, data[size - 1]`. -/
def bufferAppend (r : Realloc) (b : Buffer) (data : Option (List UInt8)) : Call Buffer :=
  match data with
  | none => .returned b
  | some bytes => do
    let b := makeRoom r b bytes.length
    let data ← memcpy b.data b.writeIndex bytes
    pure { b with data := data, writeIndex := b.writeIndex + bytes.length }

def bufferAppendChar (r : Realloc) (b : Buffer) (c : UInt8) : Call Buffer := do
  let b := makeRoom r b 1
  let data ← memcpy b.data b.writeIndex [c]
  pure { b with data := data, writeIndex := b.writeIndex + 1 }

/-- `buffer_append(buffer, bytes, size)` where `size` is the number of the bytes put into an
`int`.  A negative size makes no room, and `memcpy` takes it for one near the end of memory. -/
def bufferAppendInt (r : Realloc) (b : Buffer) (bytes : List UInt8) : Call Buffer :=
  if 0 ≤ toInt bytes.length then bufferAppend r b (some (bytes.take (toInt bytes.length).toNat))
  else .faulted .outOfBounds

/-- `s` is `NULL` or the memory the pointer leads to, read up to its first zero. -/
def bufferAppendString (r : Realloc) (b : Buffer) (s : Option (List UInt8)) : Call Buffer :=
  match s with
  | none => .returned b
  | some s => bufferAppendInt r b (cstr s)

/-- `readv` fills the room behind the content first and `additional_buffer` with the rest. -/
def bufferSocketRead (r : Realloc) (b : Buffer) (result : ReadvResult) : Call (Buffer × ℤ) :=
  match result with
  | .error _ => .returned (b, -1)
  | .ok bytes => do
    let maxWritable := bufferWriteableSize b
    let data ← memcpy b.data b.writeIndex (bytes.take maxWritable)
    let b := { b with data := data }
    if bytes.length ≤ maxWritable then
      pure ({ b with writeIndex := b.writeIndex + bytes.length }, bytes.length)
    else
      let b ← bufferAppend r { b with writeIndex := b.totalSize } (some (bytes.drop maxWritable))
      pure (b, bytes.length)

/-- The content: the bytes between the two indices. -/
def Buffer.content (b : Buffer) : List UInt8 :=
  (b.data.drop b.readIndex).take (bufferReadableSize b)

/-- The pointer returned, as an offset from `data + readIndex`. -/
def bufferFindCRLF (b : Buffer) : Option ℕ := memmem crlf b.content

/-- `readIndex += n`. -/
def Buffer.advance (b : Buffer) (n : ℕ) : Buffer := { b with readIndex := b.readIndex + n }

/-! ## Well-formed buffers -/

/-- The indices are in order and inside an allocation of the size recorded. -/
structure Buffer.Wf (b : Buffer) : Prop where
  read_le : b.readIndex ≤ b.writeIndex
  write_le : b.writeIndex ≤ b.totalSize
  total_eq : b.totalSize = b.data.length

lemma bufferNew_wf (fresh : ℕ → UInt8) : (bufferNew fresh).Wf :=
  ⟨le_rfl, Nat.zero_le _, by simp [bufferNew]⟩

lemma bufferNew_total_lt (fresh : ℕ → UInt8) : (bufferNew fresh).totalSize < 2 ^ 31 := by
  show initBufferSize < 2 ^ 31
  decide

@[simp] lemma bufferNew_content (fresh : ℕ → UInt8) : (bufferNew fresh).content = [] := by
  simp [Buffer.content, bufferReadableSize, bufferNew]

namespace Buffer.Wf

variable {b : Buffer}

lemma length_content (h : b.Wf) : b.content.length = bufferReadableSize b := by
  have h₁ := h.read_le
  have h₂ := h.write_le
  have h₃ := h.total_eq
  simp only [Buffer.content, bufferReadableSize, List.length_take, List.length_drop]
  omega

lemma advance {n : ℕ} (h : b.Wf) (hn : n ≤ bufferReadableSize b) : (b.advance n).Wf := by
  have h₁ := h.read_le
  refine ⟨?_, h.write_le, h.total_eq⟩
  simp only [Buffer.advance, bufferReadableSize] at hn ⊢
  omega

end Buffer.Wf

@[simp] lemma Buffer.content_advance (b : Buffer) (n : ℕ) :
    (b.advance n).content = b.content.drop n := by
  simp only [Buffer.content, Buffer.advance, bufferReadableSize, List.drop_take, List.drop_drop]
  congr 1
  omega

/-! ## Storing bytes -/

/-- Bytes stored behind the content extend it. -/
lemma content_of_store {b : Buffer} (h : b.Wf) (bytes : List UInt8) :
    ({ b with
        data := b.data.take b.writeIndex ++ bytes ++ b.data.drop (b.writeIndex + bytes.length)
        writeIndex := b.writeIndex + bytes.length } : Buffer).content = b.content ++ bytes := by
  have h₁ := h.read_le
  have h₂ := h.write_le.trans_eq h.total_eq
  have htake : (b.data.take b.writeIndex).drop b.readIndex = b.content := by
    rw [List.drop_take]
    rfl
  have hlen : b.writeIndex + bytes.length - b.readIndex = (b.content ++ bytes).length := by
    rw [List.length_append, h.length_content, bufferReadableSize]
    omega
  simp only [Buffer.content, bufferReadableSize]
  rw [hlen, List.append_assoc, List.drop_append_of_le_length, htake, ← List.append_assoc]
  · exact List.take_left' rfl
  · rw [List.length_take]
    omega

lemma wf_of_store {b : Buffer} (h : b.Wf) {bytes : List UInt8}
    (hfit : b.writeIndex + bytes.length ≤ b.data.length) :
    ({ b with
        data := b.data.take b.writeIndex ++ bytes ++ b.data.drop (b.writeIndex + bytes.length)
        writeIndex := b.writeIndex + bytes.length } : Buffer).Wf := by
  have h₁ := h.read_le
  have h₃ := h.total_eq
  refine ⟨?_, ?_, ?_⟩
  · simp only
    omega
  · simp only
    omega
  · simp only [List.length_append, List.length_take, List.length_drop]
    omega

/-! ## Making room -/

/-- Neither the room behind the content nor moving the content is enough for `size` bytes. -/
def NeedsGrowth (b : Buffer) (size : ℕ) : Prop :=
  bufferFrontSpareSize b + bufferWriteableSize b < size

instance (b : Buffer) (size : ℕ) : Decidable (NeedsGrowth b size) :=
  inferInstanceAs (Decidable (_ < _))

/-- A new buffer has room for `initBufferSize` bytes. -/
lemma bufferNew_not_needsGrowth (fresh : ℕ → UInt8) {size : ℕ} (h : size ≤ initBufferSize) :
    ¬ NeedsGrowth (bufferNew fresh) size := by
  simp only [NeedsGrowth, bufferFrontSpareSize, bufferWriteableSize, bufferNew]
  omega

/-- The allocation can grow if it has to. -/
def CanGrow (r : Realloc) (b : Buffer) (size : ℕ) : Prop :=
  NeedsGrowth b size → (r.ofInt (b.totalSize + size)).isSome = true

lemma copyToFront_length (data : List UInt8) (readIndex n : ℕ) :
    (copyToFront data readIndex n).length = data.length := by
  induction n with
  | zero => rfl
  | succ n ih => simp [copyToFront, ih]

/-- After `n` turns the first `n` bytes are in place and the others are as they were; the byte
a turn reads lies at or behind the one it writes, so no turn reads what an earlier one wrote. -/
lemma getElem?_copyToFront (data : List UInt8) (readIndex : ℕ) {n : ℕ}
    (hn : readIndex + n ≤ data.length) (j : ℕ) :
    (copyToFront data readIndex n)[j]? =
      if j < n then data[readIndex + j]? else data[j]? := by
  induction n generalizing j with
  | zero => simp [copyToFront]
  | succ n ih =>
    have hlen := copyToFront_length data readIndex n
    have hread : (copyToFront data readIndex n)[readIndex + n]? = data[readIndex + n]? := by
      rw [ih (by omega), if_neg (by omega)]
    have hin : readIndex + n < data.length := by omega
    rw [copyToFront, List.getElem?_set, List.getD_eq_getElem?_getD, hread, hlen]
    by_cases hj : n = j
    · subst hj
      rw [if_pos rfl, if_pos (by omega), if_pos (by omega), List.getElem?_eq_getElem hin]
      rfl
    · rw [if_neg hj, ih (by omega)]
      by_cases hlt : j < n
      · rw [if_pos hlt, if_pos (by omega)]
      · rw [if_neg hlt, if_neg (by omega)]

/-- Moving the whole content puts it at the front. -/
lemma take_copyToFront {b : Buffer} (h : b.Wf) :
    (copyToFront b.data b.readIndex (bufferReadableSize b)).take (bufferReadableSize b) =
      b.content := by
  have h₁ := h.read_le
  have h₂ := h.write_le.trans_eq h.total_eq
  apply List.ext_getElem?
  intro j
  have hn : b.readIndex + bufferReadableSize b ≤ b.data.length := by
    rw [bufferReadableSize]
    omega
  simp only [Buffer.content, List.getElem?_take, List.getElem?_drop]
  split_ifs with hj
  · rw [getElem?_copyToFront b.data b.readIndex hn, if_pos hj]
  · rfl

lemma makeRoom_of_not_canGrow {r : Realloc} {b : Buffer} {size : ℕ}
    (h : ¬ CanGrow r b size) : makeRoom r b size = b := by
  obtain ⟨hneeds, hnull⟩ := Classical.not_imp.1 h
  have hnone : r.ofInt (b.totalSize + size) = none := by simpa using hnull
  simp only [NeedsGrowth] at hneeds
  rw [makeRoom, if_neg (by omega), if_neg (by omega), hnone]

/-- What `make_room` promises when it can keep the promise: the content is what it was, and
there is room behind it. -/
structure Roomy (b b' : Buffer) (size : ℕ) : Prop where
  wf : b'.Wf
  content_eq : b'.content = b.content
  room : size ≤ bufferWriteableSize b'

lemma makeRoom_roomy {r : Realloc} {b : Buffer} {size : ℕ} (h : b.Wf)
    (hgrow : CanGrow r b size) : Roomy b (makeRoom r b size) size := by
  have h₁ := h.read_le
  have h₂ := h.write_le
  have h₃ := h.total_eq
  unfold makeRoom
  split_ifs with hroom hspare
  · exact ⟨h, rfl, hroom⟩
  · refine ⟨⟨Nat.zero_le _, ?_, ?_⟩, ?_, ?_⟩
    · simp only [bufferReadableSize]
      omega
    · rw [copyToFront_length]
      exact h₃
    · simp only [Buffer.content, List.drop_zero, bufferReadableSize, Nat.sub_zero]
      exact take_copyToFront h
    · simp only [bufferFrontSpareSize, bufferWriteableSize, bufferReadableSize] at hspare ⊢
      omega
  · have hsome := hgrow (by simp only [NeedsGrowth]; omega)
    obtain ⟨fresh, hfresh⟩ := Option.isSome_iff_exists.1 hsome
    rw [hfresh]
    refine ⟨⟨h₁, ?_, ?_⟩, ?_, ?_⟩
    · simp only
      omega
    · simp [h₃]
    · simp only [Buffer.content, bufferReadableSize]
      rw [List.drop_append_of_le_length (by omega), List.take_append_of_le_length]
      rw [List.length_drop]
      omega
    · simp only [bufferWriteableSize]
      omega

/-! ## Appending -/

/-- `b'` is a well-formed buffer with `bytes` behind the content of `b`. -/
structure Appended (b b' : Buffer) (bytes : List UInt8) : Prop where
  wf : b'.Wf
  content_eq : b'.content = b.content ++ bytes

lemma Appended.trans {b b₁ b₂ : Buffer} {xs ys : List UInt8} (h₁ : Appended b b₁ xs)
    (h₂ : Appended b₁ b₂ ys) : Appended b b₂ (xs ++ ys) :=
  ⟨h₂.wf, by rw [h₂.content_eq, h₁.content_eq, List.append_assoc]⟩

lemma store_returns {b b' : Buffer} {bytes : List UInt8} (h : Roomy b b' bytes.length) :
    ∃ data, memcpy b'.data b'.writeIndex bytes = .returned data ∧
      Appended b { b' with data := data, writeIndex := b'.writeIndex + bytes.length } bytes := by
  have hfit : b'.writeIndex + bytes.length ≤ b'.data.length := by
    have hroom := h.room
    have hwrite := h.wf.write_le
    have htotal := h.wf.total_eq
    simp only [bufferWriteableSize] at hroom
    omega
  refine ⟨_, if_pos hfit, wf_of_store h.wf hfit, ?_⟩
  rw [content_of_store h.wf bytes, h.content_eq]

lemma bufferAppend_returns {r : Realloc} {b : Buffer} {bytes : List UInt8} (h : b.Wf)
    (hgrow : CanGrow r b bytes.length) :
    ∃ b', bufferAppend r b (some bytes) = .returned b' ∧ Appended b b' bytes := by
  obtain ⟨data, hdata, happ⟩ := store_returns (makeRoom_roomy h hgrow)
  exact ⟨_, by simp [bufferAppend, hdata], happ⟩

/-- Without room `bufferAppend` writes past the allocation. -/
lemma bufferAppend_faults {r : Realloc} {b : Buffer} {bytes : List UInt8} (h : b.Wf)
    (hgrow : ¬ CanGrow r b bytes.length) :
    bufferAppend r b (some bytes) = .faulted .outOfBounds := by
  obtain ⟨hneeds, -⟩ := Classical.not_imp.1 hgrow
  have hwrite := h.write_le
  have htotal := h.total_eq
  have hpast : ¬ b.writeIndex + bytes.length ≤ b.data.length := by
    simp only [NeedsGrowth, bufferFrontSpareSize, bufferWriteableSize] at hneeds
    omega
  simp [bufferAppend, makeRoom_of_not_canGrow hgrow, memcpy, hpast]

/-- A number of bytes that fits in an `int` is appended as it is. -/
lemma bufferAppendInt_of_lt {r : Realloc} {b : Buffer} {bytes : List UInt8}
    (h : bytes.length < 2 ^ 31) : bufferAppendInt r b bytes = bufferAppend r b (some bytes) := by
  have hint := toInt_of_lt h
  have hpos : 0 ≤ toInt bytes.length := by omega
  rw [bufferAppendInt, if_pos hpos, hint, Int.toNat_natCast, List.take_length]

lemma bufferAppendChar_eq (r : Realloc) (b : Buffer) (c : UInt8) :
    bufferAppendChar r b c = bufferAppend r b (some [c]) := rfl

/-- What did not go into the room behind the content. -/
def spill (b : Buffer) (bytes : List UInt8) : ℕ := bytes.length - bufferWriteableSize b

/-- The allocation can grow by what a read leaves over, if it has to. -/
def CanRead (r : Realloc) (b : Buffer) (bytes : List UInt8) : Prop :=
  NeedsGrowth b bytes.length → (r.ofInt (b.totalSize + spill b bytes)).isSome = true

/-- The bytes of a read that the kernel put behind the content, and the bytes it put into
`additional_buffer`, end up behind the content in this order. -/
lemma bufferSocketRead_returns {r : Realloc} {b : Buffer} {bytes : List UInt8} (h : b.Wf)
    (hgrow : CanRead r b bytes) :
    ∃ b', bufferSocketRead r b (.ok bytes) = .returned (b', (bytes.length : ℤ)) ∧
      Appended b b' bytes := by
  set room := bufferWriteableSize b with hroom
  have hwrite := h.write_le
  have hdirect : Roomy b b (bytes.take room).length :=
    ⟨h, rfl, by rw [List.length_take]; omega⟩
  obtain ⟨data, hdata, happ⟩ := store_returns hdirect
  by_cases hle : bytes.length ≤ room
  · rw [List.take_of_length_le hle] at hdata happ
    refine ⟨_, ?_, happ⟩
    simp [bufferSocketRead, ← hroom, hle, List.take_of_length_le hle, hdata]
  · have hlen : (bytes.take room).length = room := by
      rw [List.length_take]
      omega
    have hfull : b.writeIndex + (bytes.take room).length = b.totalSize := by
      rw [hlen, hroom, bufferWriteableSize]
      omega
    rw [hfull] at happ
    have hspill : CanGrow r { b with data := data, writeIndex := b.totalSize }
        (bytes.drop room).length := by
      intro hneeds
      rw [List.length_drop]
      apply hgrow
      simp only [NeedsGrowth, bufferFrontSpareSize, bufferWriteableSize, List.length_drop]
        at hneeds hroom ⊢
      omega
    obtain ⟨b', hb', happ'⟩ := bufferAppend_returns happ.wf hspill
    refine ⟨b', ?_, happ'.wf, ?_⟩
    · simp [bufferSocketRead, ← hroom, hle, hdata, hb']
    · rw [happ'.content_eq, happ.content_eq, List.append_assoc, List.take_append_drop]

/-! ## Reading more than there is room for -/

/-- The buffer whose allocation is full up to its end. -/
def Buffer.filled (b : Buffer) : Buffer := { b with writeIndex := b.totalSize }

lemma Buffer.Wf.filled {b : Buffer} (h : b.Wf) : b.filled.Wf :=
  ⟨h.read_le.trans h.write_le, le_rfl, h.total_eq⟩

/-- The bytes that go into the room behind the content fill it, and the others are appended. -/
lemma bufferSocketRead_spill {r : Realloc} {b : Buffer} (h : b.Wf) {bytes : List UInt8}
    (hspill : bufferWriteableSize b < bytes.length) :
    ∃ data : List UInt8, ({ b.filled with data := data } : Buffer).Wf ∧
      bufferSocketRead r b (.ok bytes) =
        bufferAppend r { b.filled with data := data }
          (some (bytes.drop (bufferWriteableSize b))) >>= fun b' =>
            .returned (b', (bytes.length : ℤ)) := by
  have hwrite := h.write_le
  have hlength : (bytes.take (bufferWriteableSize b)).length = bufferWriteableSize b :=
    List.length_take_of_le hspill.le
  have hroomy : Roomy b b (bytes.take (bufferWriteableSize b)).length := ⟨h, rfl, hlength.le⟩
  obtain ⟨data, hdata, happ⟩ := store_returns hroomy
  have hfull : b.writeIndex + (bytes.take (bufferWriteableSize b)).length = b.totalSize := by
    rw [hlength, bufferWriteableSize]
    omega
  rw [hfull] at happ
  refine ⟨data, happ.wf, ?_⟩
  rw [bufferSocketRead, hdata, Outcome.returned_bind, if_neg hspill.not_ge]
  rfl

/-! ## Sizes -/

/-- What `make_room` looks at: the sizes in front of the content and behind it, and the size of
the allocation. -/
structure BufferSizes where
  front : ℕ
  room : ℕ
  total : ℕ
  deriving DecidableEq, Repr

def Buffer.sizes (b : Buffer) : BufferSizes :=
  ⟨bufferFrontSpareSize b, bufferWriteableSize b, b.totalSize⟩

namespace BufferSizes

/-- The sizes after `size` bytes have been appended: there was room, the content was moved, or the
allocation has grown by as much as was asked for. -/
def append (z : BufferSizes) (size : ℕ) : BufferSizes :=
  if size ≤ z.room then { z with room := z.room - size }
  else if size ≤ z.front + z.room then { z with front := 0, room := z.front + z.room - size }
  else { z with total := z.total + size }

/-- The sizes after a read of `size` bytes, which fills the room behind the content first. -/
def read (z : BufferSizes) (size : ℕ) : BufferSizes :=
  if size ≤ z.room then z.append size else { z with room := 0 }.append (size - z.room)

/-- The sizes after `n` bytes have been consumed. -/
def advance (z : BufferSizes) (n : ℕ) : BufferSizes := { z with front := z.front + n }

/-- If the allocation has to grow for `size` bytes, its new size is an `int`. -/
def Fits (z : BufferSizes) (size : ℕ) : Prop :=
  z.front + z.room < size → z.total + size < 2 ^ 31

/-- If the allocation has to grow for what a read of `size` bytes leaves over, its new size is an
`int`. -/
def FitsRead (z : BufferSizes) (size : ℕ) : Prop :=
  z.front + z.room < size → z.total + (size - z.room) < 2 ^ 31

instance (z : BufferSizes) (size : ℕ) : Decidable (z.Fits size) :=
  inferInstanceAs (Decidable (_ → _))

instance (z : BufferSizes) (size : ℕ) : Decidable (z.FitsRead size) :=
  inferInstanceAs (Decidable (_ → _))

lemma append_zero (z : BufferSizes) : z.append 0 = z := if_pos (Nat.zero_le _)

lemma Fits.append_total_lt {z : BufferSizes} {size : ℕ} (h : z.Fits size)
    (htotal : z.total < 2 ^ 31) : (z.append size).total < 2 ^ 31 := by
  unfold append
  split_ifs
  · exact htotal
  · exact htotal
  · exact h (by omega)

lemma FitsRead.read_total_lt {z : BufferSizes} {size : ℕ} (h : z.FitsRead size)
    (htotal : z.total < 2 ^ 31) : (z.read size).total < 2 ^ 31 := by
  unfold read
  split_ifs with hroom
  · exact Fits.append_total_lt (fun hneeds => absurd hroom (by omega)) htotal
  · refine Fits.append_total_lt (fun hneeds => ?_) htotal
    simp only at hneeds
    exact h (by omega)

end BufferSizes

/-- Data of these sizes can be appended one after the other. -/
def SizesFit : BufferSizes → List ℕ → Prop
  | _, [] => True
  | z, size :: sizes => z.Fits size ∧ SizesFit (z.append size) sizes

instance SizesFit.decidable : (z : BufferSizes) → (sizes : List ℕ) → Decidable (SizesFit z sizes)
  | _, [] => inferInstanceAs (Decidable True)
  | z, size :: sizes =>
    have := SizesFit.decidable (z.append size) sizes
    inferInstanceAs (Decidable (_ ∧ _))

/-- Sizes that fit are `int`s. -/
lemma SizesFit.lt {sizes : List ℕ} : ∀ {z : BufferSizes}, SizesFit z sizes →
    z.front + z.room < 2 ^ 31 → z.total < 2 ^ 31 → ∀ size ∈ sizes, size < 2 ^ 31 := by
  induction sizes with
  | nil => simp
  | cons size sizes ih =>
    intro z h hfree htotal
    have hone : size < 2 ^ 31 := by
      by_contra hle
      have := h.1 (by omega)
      omega
    have hfree' : (z.append size).front + (z.append size).room < 2 ^ 31 := by
      unfold BufferSizes.append
      split_ifs <;> dsimp only <;> omega
    exact List.forall_mem_cons.2 ⟨hone, ih h.2 hfree' (h.1.append_total_lt htotal)⟩

lemma Buffer.Wf.free_le {b : Buffer} (h : b.Wf) :
    b.sizes.front + b.sizes.room ≤ b.sizes.total := by
  have h₁ := h.read_le
  have h₂ := h.write_le
  simp only [Buffer.sizes, bufferFrontSpareSize, bufferWriteableSize]
  omega

@[simp] lemma Buffer.sizes_advance (b : Buffer) (n : ℕ) :
    (b.advance n).sizes = b.sizes.advance n := rfl

lemma bufferNew_sizes (fresh : ℕ → UInt8) :
    (bufferNew fresh).sizes = ⟨0, initBufferSize, initBufferSize⟩ := rfl

section Sizes

variable {r : Realloc} {b b' : Buffer} {bytes : List UInt8}

/-- An allocation grows to a size that is an `int`. -/
lemma CanGrow.fits {size : ℕ} (h : CanGrow r b size) (htotal : b.totalSize < 2 ^ 31)
    (hsize : size < 2 ^ 31) : b.sizes.Fits size := by
  intro hneeds
  by_contra hfits
  have hnone : r.ofInt (b.totalSize + size) = none := r.ofInt_of_le (not_lt.1 hfits) (by omega)
  have hsome := h hneeds
  rw [hnone, Option.isSome_none] at hsome
  exact Bool.false_ne_true hsome

/-- With an allocator that is not short of memory the allocation can grow exactly if its new size
is an `int`. -/
lemma Realloc.Succeeds.canGrow_iff (h : r.Succeeds) {size : ℕ} (htotal : b.totalSize < 2 ^ 31)
    (hsize : size < 2 ^ 31) : CanGrow r b size ↔ b.sizes.Fits size := by
  refine ⟨fun hgrow => hgrow.fits htotal hsize, fun hfits hneeds => ?_⟩
  have htotal' : b.totalSize + size < 2 ^ 31 := hfits hneeds
  rw [r.ofInt_of_lt htotal']
  exact h _

/-- What becomes of the sizes, by the way in which room was made. -/
lemma makeRoom_sizes (h : b.Wf) {size : ℕ} (hgrow : CanGrow r b size) :
    ({ makeRoom r b size with writeIndex := (makeRoom r b size).writeIndex + size } :
      Buffer).sizes = b.sizes.append size := by
  have h₁ := h.read_le
  have h₂ := h.write_le
  have hfront : b.sizes.front = b.readIndex := rfl
  have hroom : b.sizes.room = b.totalSize - b.writeIndex := rfl
  have hneeds : NeedsGrowth b size ↔ b.sizes.front + b.sizes.room < size := Iff.rfl
  unfold makeRoom BufferSizes.append
  by_cases hin : size ≤ b.sizes.room
  · rw [if_pos hin, if_pos (show bufferWriteableSize b ≥ size from hin)]
    simp only [Buffer.sizes, bufferFrontSpareSize, bufferWriteableSize, BufferSizes.mk.injEq,
      true_and, and_true]
    omega
  · rw [if_neg hin, if_neg (show ¬ bufferWriteableSize b ≥ size from hin)]
    by_cases hmove : size ≤ b.sizes.front + b.sizes.room
    · rw [if_pos hmove,
        if_pos (show bufferFrontSpareSize b + bufferWriteableSize b ≥ size from hmove)]
      simp only [Buffer.sizes, bufferFrontSpareSize, bufferWriteableSize, bufferReadableSize,
        BufferSizes.mk.injEq, true_and, and_true]
      omega
    · rw [if_neg hmove,
        if_neg (show ¬ bufferFrontSpareSize b + bufferWriteableSize b ≥ size from hmove)]
      obtain ⟨fresh, hfresh⟩ := Option.isSome_iff_exists.1 (hgrow (hneeds.2 (by omega)))
      rw [hfresh]
      simp only [Buffer.sizes, bufferFrontSpareSize, bufferWriteableSize, BufferSizes.mk.injEq,
        true_and, and_true]
      omega

lemma bufferAppend_sizes (h : b.Wf) (hgrow : CanGrow r b bytes.length)
    (hreturned : bufferAppend r b (some bytes) = .returned b') :
    b'.sizes = b.sizes.append bytes.length := by
  obtain ⟨data, -, hdone⟩ := Outcome.bind_eq_returned.1 hreturned
  cases hdone
  exact makeRoom_sizes h hgrow

lemma Realloc.Succeeds.canRead_iff (h : r.Succeeds) (htotal : b.totalSize < 2 ^ 31)
    (hsize : bytes.length < 2 ^ 31) : CanRead r b bytes ↔ b.sizes.FitsRead bytes.length := by
  refine imp_congr_right fun _ => ?_
  have hless : spill b bytes ≤ bytes.length := Nat.sub_le _ _
  show _ ↔ b.totalSize + spill b bytes < 2 ^ 31
  by_cases hfits : b.totalSize + spill b bytes < 2 ^ 31
  · rw [r.ofInt_of_lt hfits]
    exact iff_of_true (h _) hfits
  · rw [r.ofInt_of_le (not_lt.1 hfits) (by omega), Option.isSome_none]
    exact iff_of_false Bool.false_ne_true hfits

/-- What does not fit behind the content needs as much growth with that room filled. -/
lemma canGrow_spill_iff (data : List UInt8) (hspill : bufferWriteableSize b < bytes.length) :
    CanGrow r { b.filled with data := data } (spill b bytes) ↔ CanRead r b bytes := by
  have hneeds : NeedsGrowth { b.filled with data := data } (spill b bytes) ↔
      NeedsGrowth b bytes.length := by
    simp only [NeedsGrowth, bufferFrontSpareSize, bufferWriteableSize, spill, Buffer.filled]
      at hspill ⊢
    omega
  exact imp_congr_left hneeds

lemma bufferSocketRead_faults (h : b.Wf) (hcan : ¬ CanRead r b bytes) :
    bufferSocketRead r b (.ok bytes) = .faulted .outOfBounds := by
  obtain ⟨hneeds, -⟩ := Classical.not_imp.1 hcan
  have hspill : bufferWriteableSize b < bytes.length := by
    rw [NeedsGrowth] at hneeds
    omega
  obtain ⟨data, hwf, happend⟩ := bufferSocketRead_spill (r := r) h hspill
  have hlength : (bytes.drop (bufferWriteableSize b)).length = spill b bytes := List.length_drop
  rw [happend, bufferAppend_faults hwf (by rwa [hlength, canGrow_spill_iff data hspill])]
  rfl

lemma bufferSocketRead_sizes {n : ℤ} (h : b.Wf) (hcan : CanRead r b bytes)
    (hreturned : bufferSocketRead r b (.ok bytes) = .returned (b', n)) :
    b'.sizes = b.sizes.read bytes.length := by
  unfold BufferSizes.read
  by_cases hspill : bufferWriteableSize b < bytes.length
  · obtain ⟨data, hwf, happend⟩ := bufferSocketRead_spill (r := r) h hspill
    have hlength : (bytes.drop (bufferWriteableSize b)).length = spill b bytes := List.length_drop
    have hgrow : CanGrow r { b.filled with data := data }
        (bytes.drop (bufferWriteableSize b)).length := by
      rw [hlength]
      exact (canGrow_spill_iff data hspill).2 hcan
    rw [happend] at hreturned
    obtain ⟨b₁, happended, hdone⟩ := Outcome.bind_eq_returned.1 hreturned
    cases hdone
    have hsizes := bufferAppend_sizes hwf hgrow happended
    have hfilled : ({ b.filled with data := data } : Buffer).sizes =
        { b.sizes with room := 0 } := by
      simp only [Buffer.sizes, bufferFrontSpareSize, bufferWriteableSize, Buffer.filled,
        Nat.sub_self]
    rw [hfilled, hlength] at hsizes
    rw [if_neg (show ¬ bytes.length ≤ b.sizes.room from not_le.2 hspill)]
    exact hsizes
  · have hle : bytes.length ≤ bufferWriteableSize b := not_lt.1 hspill
    have hin : bytes.length ≤ b.sizes.room := hle
    rw [if_pos hin, BufferSizes.append, if_pos hin]
    obtain ⟨data, -, hrest⟩ := Outcome.bind_eq_returned.1 hreturned
    simp only [if_pos hle] at hrest
    cases hrest
    simp only [Buffer.sizes, bufferFrontSpareSize, bufferWriteableSize, BufferSizes.mk.injEq,
      true_and, and_true]
    omega

end Sizes

end Yolanda
