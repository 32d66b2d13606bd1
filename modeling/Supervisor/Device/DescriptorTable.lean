import Supervisor.Device.Event

/-! The descriptor table: flat segments, and the task state segment whose base is left to the
loader. -/

namespace Supervisor.Device

/-- A segment of code or data that covers the whole address space. -/
structure Descriptor where
  code : Bool
  ring : Nat
deriving DecidableEq

namespace Descriptor

private def bit (position : Nat) (set : Bool := true) : Nat := if set then 1 <<< position else 0

/-- The descriptor as the processor reads it: present, accessed and writable (for code, readable),
with the largest limit in pages. Code is marked for 64-bit mode, data for 32-bit operands. -/
def encode (d : Descriptor) : UInt64 :=
  let limit := 0xFFFF + (0xF <<< 48)
  let common := bit 40 + bit 41 + bit 44 + bit 47 + bit 55
  let kind := bit 43 d.code + bit 53 d.code + bit 54 (!d.code)
  (limit + common + kind + (d.ring <<< 45)).toUInt64

end Descriptor

/-- The parts of the task state segment that are set up. -/
structure TaskState where
  /-- Stacks for entering rings 0 to 2. -/
  privilegeStacks : List UInt64
  /-- For each of the seven interrupt stacks its size in bytes, if there is one. -/
  interruptStacks : List (Option Nat)
  /-- Where the map of allowed ports starts. At the size of the segment there is none. -/
  portMapBase : Nat

namespace TaskState

/-- The size of the segment in bytes. -/
def size : Nat := 104

/-- Only double faults have a stack of their own, of five pages. -/
def standard : TaskState where
  privilegeStacks := [0, 0, 0]
  interruptStacks := some (5 * 4096) :: List.replicate 6 none
  portMapBase := size

/-- The low half of the descriptor of a free 64-bit task state segment, without its base address. -/
def descriptorLow : UInt64 := (size - 1 + (9 <<< 40) + (1 <<< 47)).toUInt64

/-- The part of the high half of the descriptor that holds no address. -/
def descriptorHigh : UInt64 := 0

end TaskState

namespace DescriptorTable

/-- The segments in the order of their indices, which start at one. -/
def segments : List Descriptor :=
  [⟨true, 0⟩, ⟨false, 0⟩, ⟨false, 3⟩, ⟨true, 3⟩]

/-- The null descriptor and the segments. The task state segment follows in two more entries. -/
def entries : List UInt64 := 0 :: segments.map Descriptor.encode

/-- The selector of the `i`th segment. -/
def selector (i : Nat) : Selector :=
  let ring := (segments[i]?.map Descriptor.ring).getD 0
  .ofIndex (i + 1).toUInt16 ring.toUInt16

/-- The segments are found under the selectors that environments and the kernel run with. -/
theorem map_selector :
    (List.range segments.length).map selector =
      [.kernelCode, .kernelData, .userData, .userCode] := by
  decide

def taskSelector : Selector := .ofIndex entries.length.toUInt16 0

/-- The last byte of the table. -/
def limit : Nat := 8 * (entries.length + 2) - 1

/-- Loads the table and then every register that points into it. The general segment registers for
user code get the user data segment, and there is no local table. -/
def load : List Event :=
  [.loadDescriptorTable limit,
    .select .cs (selector 0),
    .select .ds (selector 1),
    .select .es (selector 1),
    .select .ss (selector 1),
    .select .fs (selector 2),
    .select .gs (selector 2),
    .select .localTable ⟨0⟩,
    .select .task taskSelector]

end DescriptorTable

end Supervisor.Device
