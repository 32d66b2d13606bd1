import Supervisor.Elf.Error
import Supervisor.Elf.Record
import Supervisor.Panic

/-! String tables. A name is given by the place where it starts, perhaps inside another name. -/

namespace Supervisor.Elf

structure StringTable where
  bytes : Array UInt8
deriving DecidableEq

namespace StringTable

/-- The table in a section of a file. It must not be empty and must end in a zero byte, so every
place inside it starts a name. -/
def ofSection (file : Buffer) (s : Section) : Except (Stop Error) StringTable := do
  let range ← Stop.ofOption .stringTableOutOfBounds (Range.within? s.offset s.size file.size)
  let bytes ← Stop.ofFault (file.slice range)
  match bytes.back? with
  | none => .error (.refused .stringTableEmpty)
  | some last => if last = 0 then .ok ⟨bytes⟩ else .error (.refused .stringTableNotTerminated)

def size (t : StringTable) : Nat := t.bytes.size

def isEmpty (t : StringTable) : Bool := t.bytes.isEmpty

/-- The name that starts at a place, without its zero byte. -/
def get? (t : StringTable) (start : UInt32) : Option (Array UInt8) :=
  if start.toNat ≤ t.size then
    let rest := t.bytes.extract start.toNat t.size
    (rest.findIdx? (· == 0)).map fun length => rest.extract 0 length
  else none

end StringTable

end Supervisor.Elf
