import Supervisor.Selector

/-! Frames: the saved state of an environment that is not running, as the trap entry stores it. -/

namespace Supervisor

/-- The general registers, in the order of a frame. -/
inductive Register where
  | r15 | r14 | r13 | r12 | r11 | r10 | r9 | r8 | rsi | rdi | rbp | rdx | rcx | rbx | rax
deriving DecidableEq

namespace Register

def all : List Register :=
  [r15, r14, r13, r12, r11, r10, r9, r8, rsi, rdi, rbp, rdx, rcx, rbx, rax]

def name : Register → String
  | r15 => "r15" | r14 => "r14" | r13 => "r13" | r12 => "r12" | r11 => "r11"
  | r10 => "r10" | r9 => "r9" | r8 => "r8" | rsi => "rsi" | rdi => "rdi"
  | rbp => "rbp" | rdx => "rdx" | rcx => "rcx" | rbx => "rbx" | rax => "rax"

def index (r : Register) : Fin 15 := ⟨r.ctorIdx, by cases r <;> decide⟩

end Register

structure Frame where
  words : Vector UInt64 24
deriving DecidableEq

namespace Frame

/-- The words of a frame by name. -/
inductive Field where
  | general (r : Register)
  | es | ds | trapNumber | errorCode | rip | cs | rflags | rsp | ss
deriving DecidableEq

namespace Field

/-- The place of a word in the frame. -/
def index : Field → Fin 24
  | general r => r.index.castLE (by decide)
  | es => 15
  | ds => 16
  | trapNumber => 17
  | errorCode => 18
  | rip => 19
  | cs => 20
  | rflags => 21
  | rsp => 22
  | ss => 23

def all : List Field :=
  Register.all.map general ++ [es, ds, trapNumber, errorCode, rip, cs, rflags, rsp, ss]

def name : Field → String
  | general r => r.name
  | es => "es"
  | ds => "ds"
  | trapNumber => "trapno"
  | errorCode => "err"
  | rip => "rip"
  | cs => "cs"
  | rflags => "rflags"
  | rsp => "rsp"
  | ss => "ss"

theorem all_index (field : Field) : all[field.index.val]? = some field := by
  cases field with
  | general r => cases r <;> rfl
  | _ => rfl

/-- No two words share a place. -/
theorem index_inj {a b : Field} (h : a.index = b.index) : a = b := by
  have hAll := all_index a
  rw [h, all_index b] at hAll
  exact (Option.some.inj hAll).symm

end Field

def zero : Frame := ⟨Vector.replicate 24 0⟩

def get (f : Frame) (field : Field) : UInt64 := f.words[field.index]

def set (f : Frame) (field : Field) (word : UInt64) : Frame := ⟨f.words.set field.index word⟩

@[simp] theorem get_set_same (f : Frame) (field : Field) (word : UInt64) :
    (f.set field word).get field = word := by
  simp [get, set]

theorem get_set_of_ne (f : Frame) {field other : Field} (hNe : field ≠ other) (word : UInt64) :
    (f.set field word).get other = f.get other := by
  have hIndex : field.index.val ≠ other.index.val := fun h => hNe (Field.index_inj (Fin.ext h))
  simp [get, set, Vector.getElem_set_ne, hIndex]

/-- The bit of the flags that lets interrupts through. -/
def interruptFlag : UInt64 := 0x200

/-- The frame of an environment that has not run yet. It has its selectors, an empty stack and
interrupts let through; all else is zero, the address of its first instruction too. -/
def initial (segments : Segments) (stackTop : UInt64) : Frame :=
  let data := segments.data.value.toUInt64
  zero
    |>.set .ds data
    |>.set .es data
    |>.set .ss data
    |>.set .cs segments.code.value.toUInt64
    |>.set .rsp stackTop
    |>.set .rflags interruptFlag

end Frame

end Supervisor
