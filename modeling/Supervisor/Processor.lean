import Supervisor.Frame

/-! The processor as far as entering an environment concerns it. `restoreSequence` is the code that
leaves the supervisor, up to the interrupt return. -/

namespace Supervisor

structure Processor where
  general : Register → UInt64
  es : UInt16
  ds : UInt16
  /-- The words pushed so far, the newest first. -/
  stack : List UInt64

/-- Memory read a word at a time. Reading where there is no memory gives nothing. -/
abbrev Words := UInt64 → Option UInt64

namespace Frame

/-- The memory that holds a frame at an address, and nothing else. -/
def storedAt (address : UInt64) (f : Frame) : Words := fun a =>
  let distance := (a - address).toNat
  if distance % 8 = 0 then f.words[distance / 8]? else none

/-- How far a word lies from the start of its frame. -/
def Field.offset (field : Field) : UInt64 := 8 * UInt64.ofNat field.index.val

/-- Every word is found at its distance from the start, wherever the frame lies. -/
theorem storedAt_offset (address : UInt64) (f : Frame) (field : Field) :
    f.storedAt address (address + field.offset) = some (f.get field) := by
  have hIndex := field.index.isLt
  have hDistance : (address + field.offset - address).toNat = 8 * field.index.val := by
    rw [UInt64.add_comm, UInt64.add_sub_cancel, Field.offset, UInt64.toNat_mul,
      UInt64.toNat_ofNat_of_lt' (by simp only [UInt64.size]; omega)]
    simp
    omega
  simp only [storedAt, hDistance]
  rw [if_pos (Nat.mul_mod_right 8 _), Nat.mul_div_cancel_left _ (by decide)]
  exact Vector.getElem?_eq_getElem hIndex

end Frame

namespace Processor

/-- The instructions that the sequence is made of. Every access to memory goes to a word of the
frame that a base register points to. -/
inductive Instruction where
  | move (target source : Register)
  | load (target base : Register) (field : Frame.Field)
  /-- The selector is the low 16 bits of the register. -/
  | selectEs (source : Register)
  | selectDs (source : Register)
  | push (base : Register) (field : Frame.Field)

def setGeneral (p : Processor) (r : Register) (word : UInt64) : Processor :=
  { p with general := fun r' => if r' = r then word else p.general r' }

/-- One instruction. It has no result when it reads where there is no memory. -/
def step (memory : Words) (p : Processor) : Instruction → Option Processor
  | .move target source => some (p.setGeneral target (p.general source))
  | .load target base field =>
    (memory (p.general base + field.offset)).map (p.setGeneral target)
  | .selectEs source => some { p with es := (p.general source).toUInt16 }
  | .selectDs source => some { p with ds := (p.general source).toUInt16 }
  | .push base field =>
    (memory (p.general base + field.offset)).map fun word => { p with stack := word :: p.stack }

def loadGeneral (r : Register) : Instruction := .load r .rax (.general r)

def restoreSequence : List Instruction :=
  [.move .rax .rdi,
    .load .rcx .rax .es, .selectEs .rcx,
    .load .rcx .rax .ds, .selectDs .rcx] ++
  [Register.rbx, .rcx, .rdx, .rsi, .rdi, .rbp, .r8, .r9, .r10, .r11, .r12, .r13, .r14, .r15].map
    loadGeneral ++
  [.push .rax .ss, .push .rax .rsp, .push .rax .rflags, .push .rax .cs, .push .rax .rip,
    loadGeneral .rax]

/-- Runs the sequence from the moment it is called to the interrupt return. -/
def restore (p : Processor) (memory : Words) : Option Processor :=
  restoreSequence.foldlM (step memory) p

/-- The processor when the sequence is called with the address of a frame. -/
def calledWith (address : UInt64) : Processor where
  general r := if r = .rdi then address else 0
  es := 0
  ds := 0
  stack := []

/-- The processor right before the interrupt return into an environment with the given frame.
Where the frame lies in memory makes no difference. -/
def entering (f : Frame) : Option Processor :=
  (calledWith 0).restore (f.storedAt 0)

end Processor

end Supervisor
