/-! Sizes and addresses that are fixed when the supervisor is built. -/

namespace Supervisor

/-- The switches a supervisor is built with. -/
structure Build where
  /-- Environments share the supervisor's privilege, and the functions it exports are bound into
  them. -/
  sharedSpace : Bool
  /-- Log records go to the serial console. -/
  serialConsole : Bool
deriving DecidableEq

namespace Build

def standard : Build := ⟨true, true⟩

/-- Everything optional is left out. -/
def bare : Build := ⟨false, false⟩

end Build

namespace Layout

/-- Generations advance in steps of two to this power, so that many slots have room below one
step. -/
def generationShift : Nat := 12

def pageSize : UInt64 := 4096

/-- The first environment's stack ends here; each later stack lies right below the one before it. -/
def stackTop : UInt64 := 0x2000000

def stackSize : UInt64 := 2 * pageSize

/-- Memory below this address belongs to environments. -/
def userTop : UInt64 := 0x8000000000

end Layout

/-- The number of slots of a table. It is a power of two that fits below one step of the
generation, so a handle holds a slot and a generation in separate bits. -/
structure Capacity where
  log2 : Nat
  log2_le : log2 ≤ Layout.generationShift

namespace Capacity

/-- Two to the power that the capacity is given by. -/
def size (c : Capacity) : Nat := 1 <<< c.log2

/-- The capacity of the table that a supervisor runs with. -/
def standard : Capacity := ⟨10, by decide⟩

/-- The capacity of the given size, if there is one. -/
def ofSize? (size : Nat) : Option Capacity :=
  if h : size.log2 ≤ Layout.generationShift then
    if 1 <<< size.log2 = size then some ⟨size.log2, h⟩ else none
  else none

end Capacity

end Supervisor
