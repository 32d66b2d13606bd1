import Supervisor.Bytes

/-! Writes to an address space, and what they mean for its contents. -/

namespace Supervisor

/-- A request to an address space. A request for no bytes is still one. -/
inductive Write where
  /-- The bytes are stored from the address on. -/
  | copy (address : UInt64) (bytes : Array UInt8)
  /-- So many zero bytes are stored from the address on. -/
  | zero (address length : UInt64)
deriving DecidableEq

abbrev Memory := Nat → UInt8

namespace Write

/-- A word is stored in eight bytes, the least significant first. -/
def word (address value : UInt64) : Write :=
  .copy address (LittleEndian.encode 8 value.toNat).toArray

def start : Write → Nat
  | copy address _ => address.toNat
  | zero address _ => address.toNat

/-- The number of bytes written. -/
def length : Write → Nat
  | copy _ bytes => bytes.size
  | zero _ length => length.toNat

@[simp] theorem length_word (address value : UInt64) : (word address value).length = 8 := by
  simp [word, length]

/-- The byte that is stored at an address, if the write reaches it. -/
def byteAt? (w : Write) (a : Nat) : Option UInt8 :=
  if w.start ≤ a ∧ a < w.start + w.length then
    match w with
    | copy address bytes => bytes[a - address.toNat]?
    | zero _ _ => some 0
  else none

def apply (m : Memory) (w : Write) : Memory := fun a => (w.byteAt? a).getD (m a)

end Write

namespace Memory

def filled (b : UInt8) : Memory := fun _ => b

/-- The memory after some writes, the first of them first. -/
def after (m : Memory) (writes : List Write) : Memory := writes.foldl Write.apply m

/-- The bytes from an address on. -/
def read (m : Memory) (address : UInt64) (count : Nat) : List UInt8 :=
  (List.range count).map fun i => m (address.toNat + i)

end Memory

end Supervisor
