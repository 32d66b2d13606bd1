import Supervisor.Selector

/-! What the supervisor does to the hardware, as a list of events in their order. -/

namespace Supervisor.Device

/-- The segment registers, and the two registers that point into the descriptor table. -/
inductive SegmentRegister where
  | cs | ds | es | ss | fs | gs | localTable | task
deriving DecidableEq

inductive Event where
  | input (port : UInt16) (value : UInt8)
  | output (port : UInt16) (value : UInt8)
  | disableInterrupts
  | enableInterrupts
  /-- Bytes sent over the serial line in a row. -/
  | transmit (bytes : List UInt8)
  /-- The processor is told where the descriptor table is; the limit is its last byte. -/
  | loadDescriptorTable (limit : Nat)
  | select (register : SegmentRegister) (selector : Selector)
deriving DecidableEq

end Supervisor.Device
