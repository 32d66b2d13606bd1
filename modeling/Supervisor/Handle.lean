import Supervisor.Fault
import Supervisor.Layout
import Supervisor.Text.Hex

/-! Handles of environments: a slot of the table in the low bits, and above them a generation that
changes with each new environment of the slot. -/

namespace Supervisor

structure Handle where
  raw : Int32
deriving DecidableEq

namespace Handle

/-- The handle that stands for whichever environment is current. No environment is given it. -/
def reserved : Handle := ⟨0⟩

def isReserved (h : Handle) : Bool := h.raw == 0

/-- One step of the generation, and the generation that a slot starts with. -/
def minGeneration : Int32 := 1 <<< Int32.ofNat Layout.generationShift

/-- The bits that hold the slot. -/
def slotMask (capacity : Nat) : Except Fault Nat :=
  if capacity = 0 then .error (.overflow .subtract) else .ok (capacity - 1)

/-- The handle of a slot in a generation. Of the slot only the low 32 bits are kept. -/
def encode (generation : Int32) (slot : Nat) : Handle := ⟨generation ||| Int32.ofNat slot⟩

def slot (h : Handle) (capacity : Nat) : Except Fault Nat :=
  (slotMask capacity).map fun mask => h.raw.toUInt32.toNat &&& mask

def generation (h : Handle) (capacity : Nat) : Except Fault Int32 :=
  (slotMask capacity).map fun mask => h.raw &&& ~~~(Int32.ofNat mask)

/-- The generation of a slot's next environment, given the handle of its last. Past the largest
generation the sum turns negative, and the count starts over. -/
def nextGeneration (last : Handle) (capacity : Nat) : Except Fault Int32 :=
  (slotMask capacity).map fun mask =>
    let next := (last.raw + minGeneration) &&& ~~~(Int32.ofNat mask)
    if next ≤ 0 then minGeneration else next

/-- Eight hexadecimal digits of the two's complement. -/
def text (h : Handle) : String := Hex.digits h.raw.toUInt32.toNat 8

instance : ToString Handle := ⟨text⟩

end Handle

end Supervisor
