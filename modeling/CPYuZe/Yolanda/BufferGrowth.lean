import CPYuZe.Yolanda.Buffer

/-!
# When the buffer cannot grow

`make_room` tells nobody that `realloc` has failed.  `bufferAppend`, `bufferAppendChar` and the
spill of `bufferSocketRead` store their bytes all the same, so each of them keeps inside the
allocation exactly if there is room for the bytes or room can be made (`HasRoom`).

`make_room` adds up the new size as an `int` and passes it as a `size_t`.  A sum that leaves the
range of `int` arrives as a number above `PTRDIFF_MAX`, which `realloc` always refuses
(`Realloc.ofInt`), so that wrapping around and failing to grow come to the same
(`canGrow_iff_hasRoom`).
-/

namespace Yolanda

/-- There is room for `size` bytes behind the content or around it, or the size the allocation is
to have fits in an `int` and the allocator grants it. -/
def HasRoom (r : Realloc) (b : Buffer) (size : ℕ) : Prop :=
  size ≤ bufferFrontSpareSize b + bufferWriteableSize b ∨
    b.totalSize + size < 2 ^ 31 ∧ (r (b.totalSize + size)).isSome = true

section

variable {r : Realloc} {b : Buffer} {size : ℕ}

lemma canGrow_iff_hasRoom (htotal : b.totalSize < 2 ^ 31) (hsize : size < 2 ^ 31) :
    CanGrow r b size ↔ HasRoom r b size := by
  rw [CanGrow, NeedsGrowth, ← not_le, HasRoom, or_iff_not_imp_left]
  refine imp_congr_right fun _ => ?_
  by_cases hfits : b.totalSize + size < 2 ^ 31
  · rw [r.ofInt_of_lt hfits, and_iff_right hfits]
  · rw [r.ofInt_of_le (not_lt.1 hfits) (by omega), Option.isSome_none]
    exact ⟨fun hnone => absurd hnone Bool.false_ne_true, fun hboth => absurd hboth.1 hfits⟩

/-! ## Safe calls -/

/-- The indices, the size and the readable bytes are the same. -/
structure Unchanged (b b' : Buffer) : Prop where
  readIndex : b'.readIndex = b.readIndex
  writeIndex : b'.writeIndex = b.writeIndex
  totalSize : b'.totalSize = b.totalSize
  content : b'.content = b.content

/-- `make_room` has made room for `size` bytes. -/
def RoomMade (r : Realloc) (b : Buffer) (size : ℕ) : Prop :=
  size ≤ bufferWriteableSize (makeRoom r b size)

/-- The call stores nothing outside the allocation, and the buffer is what it was if `made`, that
room has been made, is false. -/
def Safe (b : Buffer) (made : Prop) (call : Call Buffer) : Prop :=
  ∃ b', call = .returned b' ∧ (¬ made → Unchanged b b')

lemma roomMade_of_canGrow (h : b.Wf) (hgrow : CanGrow r b size) : RoomMade r b size :=
  (makeRoom_roomy h hgrow).room

lemma not_safe_of_faulted {made : Prop} {call : Call Buffer} {f : Fault}
    (h : call = .faulted f) : ¬ Safe b made call := by
  rintro ⟨b', hreturned, -⟩
  exact absurd (h.symm.trans hreturned) (by simp)

lemma safe_bufferAppend_iff (h : b.Wf) (bytes : List UInt8) :
    Safe b (RoomMade r b bytes.length) (bufferAppend r b (some bytes)) ↔
      CanGrow r b bytes.length := by
  constructor
  · intro hsafe
    by_contra hgrow
    exact not_safe_of_faulted (bufferAppend_faults h hgrow) hsafe
  · intro hgrow
    obtain ⟨b', hreturned, -⟩ := bufferAppend_returns h hgrow
    exact ⟨b', hreturned, fun hmade => absurd (roomMade_of_canGrow h hgrow) hmade⟩

/-- Whether there is room for the spill does not depend on what is in the buffer. -/
lemma canGrow_filled (data : List UInt8) :
    CanGrow r { b.filled with data := data } size ↔ CanGrow r b.filled size :=
  Iff.rfl

lemma safe_bufferSocketRead_iff (h : b.Wf) (bytes : List UInt8) :
    Safe b (RoomMade r b.filled (spill b bytes))
        (Prod.fst <$> bufferSocketRead r b (.ok bytes)) ↔
      CanGrow r b.filled (spill b bytes) := by
  by_cases hspill : bufferWriteableSize b < bytes.length
  · obtain ⟨data, hwf, hread⟩ := bufferSocketRead_spill (r := r) h hspill
    have happend : Prod.fst <$> bufferSocketRead r b (.ok bytes) =
        bufferAppend r { b.filled with data := data }
          (some (bytes.drop (bufferWriteableSize b))) := by
      rw [hread]
      cases bufferAppend r { b.filled with data := data }
        (some (bytes.drop (bufferWriteableSize b))) <;> rfl
    have hlength : (bytes.drop (bufferWriteableSize b)).length = spill b bytes := List.length_drop
    rw [happend]
    constructor
    · intro hsafe
      by_contra hgrow
      rw [← canGrow_filled data, ← hlength] at hgrow
      exact not_safe_of_faulted (bufferAppend_faults hwf hgrow) hsafe
    · intro hgrow
      have hgrow' : CanGrow r { b.filled with data := data }
          (bytes.drop (bufferWriteableSize b)).length := by
        rw [hlength]
        exact hgrow
      obtain ⟨b', hreturned, -⟩ := bufferAppend_returns hwf hgrow'
      have hmade : RoomMade r b.filled (spill b bytes) :=
        roomMade_of_canGrow h.filled hgrow
      exact ⟨b', hreturned, fun hnot => absurd hmade hnot⟩
  · have hnone : spill b bytes = 0 := Nat.sub_eq_zero_of_le (not_lt.1 hspill)
    have hgrow : CanGrow r b.filled (spill b bytes) := by
      intro hneeds
      rw [hnone] at hneeds
      exact absurd hneeds (Nat.not_lt_zero _)
    refine ⟨fun _ => hgrow, fun _ => ?_⟩
    have hfits : ¬ NeedsGrowth b bytes.length := by
      rw [NeedsGrowth]
      omega
    have hnogrow : CanRead r b bytes := fun hneeds => absurd hneeds hfits
    obtain ⟨b', hreturned, -⟩ := bufferSocketRead_returns h hnogrow
    have hmade : RoomMade r b.filled (spill b bytes) := by
      rw [hnone]
      exact Nat.zero_le _
    exact ⟨b', by rw [hreturned]; rfl, fun hnot => absurd hmade hnot⟩

end

/-- The calls that put bytes into a buffer are safe exactly if there is room for the bytes or room
can be made. -/
theorem safe_iff_hasRoom {b : Buffer} (h : b.Wf) (htotal : b.totalSize < 2 ^ 31) (r : Realloc) :
    (∀ bytes : List UInt8, bytes.length < 2 ^ 31 →
      (Safe b (RoomMade r b bytes.length) (bufferAppend r b (some bytes)) ↔
        HasRoom r b bytes.length)) ∧
    (∀ c, Safe b (RoomMade r b 1) (bufferAppendChar r b c) ↔ HasRoom r b 1) ∧
    ∀ bytes : List UInt8, bytes.length < 2 ^ 31 →
      (Safe b (RoomMade r b.filled (spill b bytes))
          (Prod.fst <$> bufferSocketRead r b (.ok bytes)) ↔
        HasRoom r b.filled (spill b bytes)) := by
  refine ⟨fun bytes hbytes => ?_, fun c => ?_, fun bytes hbytes => ?_⟩
  · rw [safe_bufferAppend_iff h, canGrow_iff_hasRoom htotal hbytes]
  · rw [bufferAppendChar_eq]
    exact (safe_bufferAppend_iff h [c]).trans (canGrow_iff_hasRoom htotal (by simp))
  · have hless : spill b bytes < 2 ^ 31 := (Nat.sub_le _ _).trans_lt hbytes
    exact (safe_bufferSocketRead_iff h bytes).trans
      (canGrow_iff_hasRoom (b := b.filled) htotal hless)

/-- A new buffer to which as many bytes have been appended as it has room for. -/
def fullBuffer : Buffer := (bufferNew fun _ => 0).filled

lemma fullBuffer_wf : fullBuffer.Wf := (bufferNew_wf fun _ => 0).filled

/-- A byte is appended to a full buffer, and there is no memory for it. -/
theorem not_safe_fullBuffer : ∃ (b : Buffer) (r : Realloc) (c : UInt8), b.Wf ∧
    b.totalSize < 2 ^ 31 ∧ ¬ Safe b (RoomMade r b 1) (bufferAppendChar r b c) := by
  have hgrow : ¬ CanGrow (fun _ => none) fullBuffer [(65 : UInt8)].length := by
    intro hgrow
    have hneeds : NeedsGrowth fullBuffer [(65 : UInt8)].length := by decide
    have hsome := hgrow hneeds
    rw [Realloc.ofInt, ite_self] at hsome
    exact absurd hsome Bool.false_ne_true
  refine ⟨fullBuffer, fun _ => none, 65, fullBuffer_wf, by decide, ?_⟩
  rw [bufferAppendChar_eq]
  exact not_safe_of_faulted (bufferAppend_faults fullBuffer_wf hgrow)

/-- The same buffer when there is memory. -/
theorem safe_iff_hasRoom_fullBuffer :
    HasRoom (fun _ => some fun _ => 0) fullBuffer 1 ∧
      Safe fullBuffer (RoomMade (fun _ => some fun _ => 0) fullBuffer 1)
        (bufferAppendChar (fun _ => some fun _ => 0) fullBuffer 65) := by
  have hroom : HasRoom (fun _ => some fun _ => 0) fullBuffer 1 := .inr ⟨by decide, rfl⟩
  exact ⟨hroom, ((safe_iff_hasRoom fullBuffer_wf (by decide) _).2.1 65).2 hroom⟩

end Yolanda
