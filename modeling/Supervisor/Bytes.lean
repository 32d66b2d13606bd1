import Supervisor.Fault

/-! Buffers of bytes whose length is a machine word, ranges of a buffer, and numbers stored in it
with the least significant byte first. -/

namespace Supervisor

namespace LittleEndian

/-- The number that the bytes spell, the least significant first. -/
def decode : List UInt8 → Nat
  | [] => 0
  | b :: rest => b.toNat + 256 * decode rest

/-- The lowest `count` bytes of a number, the least significant first. -/
def encode : Nat → Nat → List UInt8
  | 0, _ => []
  | count + 1, n => n.toUInt8 :: encode count (n / 256)

@[simp] theorem length_encode (count n : Nat) : (encode count n).length = count := by
  induction count generalizing n with
  | zero => rfl
  | succ count ih => simp [encode, ih]

/-- A word is read back from its eight bytes. -/
theorem decode_encode_word (w : UInt64) : decode (encode 8 w.toNat) = w.toNat := by
  have hWord := w.toNat_lt
  simp only [encode, decode, Nat.toUInt8_eq, UInt8.toNat_ofNat']
  omega

end LittleEndian

/-- Bytes in memory. There are fewer than 2^64 of them, so their number is a machine word. -/
structure Buffer where
  bytes : Array UInt8
  size_lt : bytes.size < UInt64.size
deriving DecidableEq

/-- The places from `start` up to, but without, `stop`. -/
structure Range where
  start : Nat
  stop : Nat
deriving DecidableEq

namespace Range

/-- The range of `length` places from `start` on, if it ends within `size` places. The sum is one
of natural numbers and cannot wrap. -/
def within? (start length : UInt64) (size : Nat) : Option Range :=
  if start.toNat + length.toNat ≤ size then some ⟨start.toNat, start.toNat + length.toNat⟩ else none

theorem within?_eq_none_iff {start length : UInt64} {size : Nat} :
    within? start length size = none ↔ size < start.toNat + length.toNat := by
  simp [within?]

end Range

namespace Buffer

/-- The buffer of the given bytes, if their number is a machine word. -/
def ofArray? (bytes : Array UInt8) : Option Buffer :=
  if h : bytes.size < UInt64.size then some ⟨bytes, h⟩ else none

def size (b : Buffer) : Nat := b.bytes.size

/-- The bytes of a range. A range that is not one of the buffer's is a fault. -/
def slice (b : Buffer) (r : Range) : Except Fault (Array UInt8) :=
  if r.stop < r.start then .error (.rangeOrder r.start r.stop)
  else if b.size < r.stop then .error (.rangeEnd r.stop b.size)
  else .ok (b.bytes.extract r.start r.stop)

/-- The range of a successful check is one of the buffer's. -/
theorem slice_of_within? {b : Buffer} {start length : UInt64} {r : Range}
    (hRange : Range.within? start length b.size = some r) :
    b.slice r = .ok (b.bytes.extract start.toNat (start.toNat + length.toNat)) := by
  simp only [Range.within?, Option.ite_none_right_eq_some, Option.some.injEq] at hRange
  obtain ⟨hFits, rfl⟩ := hRange
  simp only [slice, Nat.not_lt.2 (Nat.le_add_right _ _), Nat.not_lt.2 hFits, if_false]

end Buffer

/-- A kind of record that is stored in a fixed number of bytes. -/
class Packed (α : Type) where
  /-- The number of bytes of a record. -/
  width : Nat
  /-- The record that the bytes spell. -/
  decode : List UInt8 → α

namespace Packed

/-- The field of `count` bytes that starts `start` bytes into a record. -/
def field (bytes : List UInt8) (start count : Nat) : Nat :=
  LittleEndian.decode ((bytes.drop start).take count)

/-- The record at a place of an array, if all of it lies inside. -/
def read? (α : Type) [Packed α] (bytes : Array UInt8) (start : Nat) : Option α :=
  if start + width α ≤ bytes.size then
    some (decode (bytes.extract start (start + width α)).toList)
  else none

end Packed

end Supervisor
