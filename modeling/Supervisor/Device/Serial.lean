import Supervisor.Device.Event
import Supervisor.Layout
import Supervisor.Log

/-! The serial console. Each byte waits until the transmitter has room, and printed text is sent
with interrupts disabled. -/

namespace Supervisor.Device

namespace Event

/-- Bytes that are sent in a row become one event. -/
def joined : List Event → List Event
  | [] => []
  | .transmit bytes :: rest =>
    match joined rest with
    | .transmit more :: others => .transmit (bytes ++ more) :: others
    | others => .transmit bytes :: others
  | event :: rest => event :: joined rest

end Event

/-- The console and the line it sends on. -/
structure Serial where
  /-- Whether the port has been opened. Before that nothing is sent. -/
  opened : Bool
  filter : Log.Filter
  /-- How often the transmitter will still be found full. -/
  busy : Nat
  /-- How often the state of the transmitter was read. -/
  polls : Nat
  events : Array Event

namespace Serial

abbrev Op (α : Type) := StateM Serial α

/-- The console before it is opened. All log records pass. -/
def closed : Serial := ⟨false, some .trace, 0, 0, #[]⟩

def event (e : Event) : Op Unit := modify fun s => { s with events := s.events.push e }

/-- The first of the ports of the line. -/
def basePort : UInt16 := 0x3F8

/-- The writes that set up the line: interrupts off, 38400 baud, eight bits without parity,
buffers on and cleared, interrupts for received bytes on. -/
def setUp : List (UInt16 × UInt8) :=
  [(1, 0x00), (3, 0x80), (0, 0x03), (1, 0x00), (3, 0x03), (2, 0xC7), (4, 0x0B), (1, 0x01)]

/-- Opens the port. With a console for log records the filter is set as well. -/
def start (build : Build) (filter : Log.Filter) : Op Unit := do
  setUp.forM fun (offset, value) => event (.output (basePort + offset) value)
  modify fun s =>
    { s with opened := true, filter := if build.serialConsole then filter else s.filter }

/-- Waits until the transmitter has room, and sends a byte as it is. -/
def sendRaw (byte : UInt8) : Op Unit := do
  modify fun s => { s with polls := s.polls + s.busy + 1, busy := 0 }
  event (.transmit [byte])

/-- What is sent for a byte. Backspace and delete move back, blank the character and move back
again. -/
def wire (byte : UInt8) : List UInt8 :=
  if byte = 0x08 ∨ byte = 0x7F then [0x08, 0x20, 0x08] else [byte]

def writeByte (byte : UInt8) : Op Unit := do
  let s ← get
  if s.opened then (wire byte).forM sendRaw

def writeText (text : String) : Op Unit := text.toUTF8.data.toList.forM writeByte

/-- Sends text with interrupts disabled. -/
def print (text : String) : Op Unit := do
  event .disableInterrupts
  writeText text
  event .enableInterrupts

def printLine (text : String) : Op Unit := print (text ++ "\n")

def isEnabled (level : Log.Level) : Op Bool := do
  let s ← get
  return s.filter.admits level

/-- The mark at the start of a line of the log. All marks are equally wide. -/
def tag : Log.Level → String
  | .trace => "[TRACE]"
  | .debug => "[DEBUG]"
  | .info => "[INFO ]"
  | .warn => "[WARN ]"
  | .error => "[ERROR]"

/-- Prints a log record as a line, if its level passes the filter. -/
def log (level : Log.Level) (target text : String) : Op Unit := do
  if ← isEnabled level then
    let mark := tag level
    printLine s!"{mark} {target}: {text}"

/-- Runs programs one after the other, each with how often the transmitter is found full at its
start. Gives for each its result, and the console after it with what it alone did. -/
def runAll {α : Type} (s : Serial) : List (Op α × Nat) → List (α × Serial)
  | [] => []
  | (op, busy) :: rest =>
    let (a, next) := op { s with busy, polls := 0, events := #[] }
    (a, next) :: runAll next rest

end Serial

end Supervisor.Device
