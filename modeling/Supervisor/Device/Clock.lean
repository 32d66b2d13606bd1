import Supervisor.Device.Event
import Supervisor.Log
import Supervisor.Text.Flags

/-! The real-time clock as a source of periodic interrupts. Every access to a register lets
non-maskable interrupts through again. -/

namespace Supervisor.Device

/-- The clock's chip, with the byte last written to its index port. -/
structure ClockChip where
  index : UInt8
  registers : UInt8 → UInt8

namespace ClockChip

/-- The register that the data port reaches. The top bit of the index is not part of the number. -/
def selected (chip : ClockChip) : UInt8 := chip.index &&& 0x7F

end ClockChip

namespace Clock

/-- A chip and what was done to it. -/
structure Bus where
  chip : ClockChip
  events : Array Event
  log : Array Log.Record

abbrev Op (α : Type) := StateM Bus α

def indexPort : UInt16 := 0x70

def dataPort : UInt16 := 0x71

def readIndex : Op UInt8 := fun bus =>
  let value := bus.chip.index
  (value, { bus with events := bus.events.push (.input indexPort value) })

def writeIndex (value : UInt8) : Op Unit := fun bus =>
  ((), { bus with
    chip := { bus.chip with index := value }
    events := bus.events.push (.output indexPort value) })

def readData : Op UInt8 := fun bus =>
  let value := bus.chip.registers bus.chip.selected
  (value, { bus with events := bus.events.push (.input dataPort value) })

def writeData (value : UInt8) : Op Unit := fun bus =>
  let number := bus.chip.selected
  let registers := fun n => if n = number then value else bus.chip.registers n
  ((), { bus with
    chip := { bus.chip with registers }
    events := bus.events.push (.output dataPort value) })

def log (level : Log.Level) (message : String) : Op Unit := fun bus =>
  ((), { bus with log := bus.log.push ⟨level, message⟩ })

def registerA : UInt8 := 0x0A

def registerB : UInt8 := 0x0B

def registerC : UInt8 := 0x0C

/-- The bit of the index that holds back non-maskable interrupts. -/
def interruptLock : UInt8 := 0x80

/-- The rate bits of register A for two interrupts a second. -/
def periodicRate : UInt8 := 0x0F

/-- The bit of register B that turns periodic interrupts on. -/
def periodicInterrupt : UInt8 := 0x40

/-- Selects a register and holds back non-maskable interrupts. -/
def select (register : UInt8) : Op Unit := writeIndex (register ||| interruptLock)

def releaseInterrupts : Op Unit := do
  let index ← readIndex
  writeIndex (index &&& ~~~interruptLock)

def holdInterrupts : Op Unit := do
  let index ← readIndex
  writeIndex (index ||| interruptLock)

/-- Sets bits of a register. The register is selected again before it is written. -/
def setBits (register bits : UInt8) : Op Unit := do
  select register
  let value ← readData
  select register
  writeData (value ||| bits)

/-- Turns on periodic interrupts, twice a second. -/
def start : Op Unit := do
  holdInterrupts
  setBits registerA periodicRate
  setBits registerB periodicInterrupt
  releaseInterrupts
  log .info "rtc: periodic interrupt at 2 Hz"

def acknowledge : Op UInt8 := do
  select registerC
  let causes ← readData
  releaseInterrupts
  return causes

/-- The causes of an interrupt by name. -/
def causesText (causes : UInt8) : String :=
  Flags.text "RegisterC" [(0x10, "UF"), (0x20, "AF"), (0x40, "PF"), (0x80, "IRQF")] causes.toNat

/-- Runs programs one after the other, each on the chip as the one before it left it. Gives for
each its result, and the chip after it with what it did. -/
def runAll {α : Type} (chip : ClockChip) : List (Op α) → List (α × Bus)
  | [] => []
  | op :: rest =>
    let (a, bus) := op ⟨chip, #[], #[]⟩
    (a, bus) :: runAll bus.chip rest

end Clock

end Supervisor.Device
