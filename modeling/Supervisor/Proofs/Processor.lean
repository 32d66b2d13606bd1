import Supervisor.Processor

/-! What the restore sequence leaves in the processor. RAX is loaded last, so every load before
finds the frame, and RCX after the selectors that it carries. -/

namespace Supervisor.Processor

variable {memory : Words} {f : Frame} {p : Processor}

/-- The frame lies in memory at an address. -/
def Holds (memory : Words) (address : UInt64) (f : Frame) : Prop :=
  ∀ field : Frame.Field, memory (address + field.offset) = some (f.get field)

theorem holds_storedAt (address : UInt64) (f : Frame) : Holds (f.storedAt address) address f :=
  f.storedAt_offset address

@[simp] theorem setGeneral_same (p : Processor) (r : Register) (word : UInt64) :
    (p.setGeneral r word).general r = word := if_pos rfl

theorem setGeneral_of_ne (p : Processor) {r other : Register} (hNe : other ≠ r) (word : UInt64) :
    (p.setGeneral r word).general other = p.general other := if_neg hNe

theorem step_load (base : Register) (hHolds : Holds memory (p.general base) f)
    (target : Register) (field : Frame.Field) :
    step memory p (.load target base field) = some (p.setGeneral target (f.get field)) := by
  rw [step, hHolds field]
  rfl

theorem step_push (base : Register) (hHolds : Holds memory (p.general base) f)
    (field : Frame.Field) :
    step memory p (.push base field) = some { p with stack := f.get field :: p.stack } := by
  rw [step, hHolds field]
  rfl

theorem foldlM_step {i : Instruction} {q : Processor} (hStep : step memory p i = some q)
    (rest : List Instruction) :
    (i :: rest).foldlM (step memory) p = rest.foldlM (step memory) q := by
  rw [List.foldlM_cons, hStep]
  rfl

theorem foldlM_part {first : List Instruction} {q : Processor}
    (hFirst : first.foldlM (step memory) p = some q) (rest : List Instruction) :
    (first ++ rest).foldlM (step memory) p = rest.foldlM (step memory) q := by
  rw [List.foldlM_append, hFirst]
  rfl

/-- The processor with some registers loaded from a frame. -/
def loaded (f : Frame) (registers : List Register) (p : Processor) : Processor :=
  { p with general := fun r => if r ∈ registers then f.get (.general r) else p.general r }

/-- Loads leave the base alone as long as it is not among the registers that are loaded. -/
theorem foldlM_load (registers : List Register) (hBase : .rax ∉ registers)
    (hHolds : Holds memory (p.general .rax) f) :
    (registers.map loadGeneral).foldlM (step memory) p = some (p.loaded f registers) := by
  induction registers generalizing p with
  | nil => rfl
  | cons r rest ih =>
      simp only [List.mem_cons, not_or] at hBase
      have hKept : (p.setGeneral r (f.get (.general r))).general .rax = p.general .rax :=
        setGeneral_of_ne p hBase.1 _
      have hLoaded : (p.setGeneral r (f.get (.general r))).loaded f rest =
          p.loaded f (r :: rest) := by
        simp only [loaded, setGeneral, Processor.mk.injEq, and_true]
        funext other
        by_cases hSame : other = r
        · simp [hSame]
        · simp [hSame]
      rw [List.map_cons, loadGeneral, foldlM_step (step_load .rax hHolds r _),
        ih hBase.2 (hKept.symm ▸ hHolds), hLoaded]

/-- The processor with some words of a frame pushed. The last of them is on top. -/
def pushed (f : Frame) (fields : List Frame.Field) (p : Processor) : Processor :=
  { p with stack := (fields.map f.get).reverse ++ p.stack }

theorem foldlM_push (fields : List Frame.Field) (hHolds : Holds memory (p.general .rax) f) :
    (fields.map (.push .rax)).foldlM (step memory) p = some (p.pushed f fields) := by
  induction fields generalizing p with
  | nil => rfl
  | cons field rest ih =>
      have hRest := ih (p := { p with stack := f.get field :: p.stack }) hHolds
      rw [List.map_cons, foldlM_step (step_push .rax hHolds field), hRest]
      simp [pushed]

/-- The processor once the selectors are loaded: the address is in RAX, and RCX is used up. -/
def selected (f : Frame) (p : Processor) : Processor :=
  { (p.setGeneral .rax (p.general .rdi)).setGeneral .rcx (f.get .ds) with
    es := (f.get .es).toUInt16
    ds := (f.get .ds).toUInt16 }

theorem foldlM_select (hHolds : Holds memory (p.general .rdi) f) :
    [Instruction.move .rax .rdi, .load .rcx .rax .es, .selectEs .rcx, .load .rcx .rax .ds,
      .selectDs .rcx].foldlM (step memory) p = some (p.selected f) := by
  let moved := p.setGeneral .rax (p.general .rdi)
  let first := { moved.setGeneral .rcx (f.get .es) with es := (f.get .es).toUInt16 }
  have hMove : step memory p (.move .rax .rdi) = some moved := rfl
  have hEs := step_load (p := moved) .rax hHolds .rcx .es
  have hSelectEs : step memory (moved.setGeneral .rcx (f.get .es)) (.selectEs .rcx) =
      some first := rfl
  have hDs := step_load (p := first) .rax hHolds .rcx .ds
  have hSelectDs : step memory (first.setGeneral .rcx (f.get .ds)) (.selectDs .rcx) =
      some (p.selected f) := by
    simp only [step, first, moved, selected, setGeneral, if_true, Option.some.injEq,
      Processor.mk.injEq, and_true]
    funext r
    by_cases hSame : r = .rcx <;> simp [hSame]
  rw [foldlM_step hMove, foldlM_step hEs, foldlM_step hSelectEs, foldlM_step hDs,
    foldlM_step hSelectDs]
  rfl

/-- Right before the interrupt return the processor carries the frame that RDI pointed to: all
general registers, the low 16 bits of the two selectors, and on top of the stack the words that the
interrupt return takes. -/
theorem restore_eq (hHolds : Holds memory (p.general .rdi) f) :
    p.restore memory = some {
      general := fun r => f.get (.general r)
      es := (f.get .es).toUInt16
      ds := (f.get .ds).toUInt16
      stack := [f.get .rip, f.get .cs, f.get .rflags, f.get .rsp, f.get .ss] ++ p.stack } := by
  let registers : List Register :=
    [.rbx, .rcx, .rdx, .rsi, .rdi, .rbp, .r8, .r9, .r10, .r11, .r12, .r13, .r14, .r15]
  let fields : List Frame.Field := [.ss, .rsp, .rflags, .cs, .rip]
  have hSequence : restoreSequence =
      [.move .rax .rdi, .load .rcx .rax .es, .selectEs .rcx, .load .rcx .rax .ds,
        .selectDs .rcx] ++ (registers.map loadGeneral ++
          (fields.map (.push .rax) ++ [loadGeneral .rax])) := rfl
  have hSelected : Holds memory ((p.selected f).general .rax) f := hHolds
  have hLoads := foldlM_load registers (by decide) hSelected
  let restored := ((p.selected f).loaded f registers).pushed f fields
  have hLoaded : Holds memory (restored.general .rax) f := hHolds
  have hPushes := foldlM_push (p := (p.selected f).loaded f registers) fields hLoaded
  have hLast := step_load (p := restored) .rax hLoaded .rax (.general .rax)
  have hResult : restored.setGeneral .rax (f.get (.general .rax)) = {
      general := fun r => f.get (.general r)
      es := (f.get .es).toUInt16
      ds := (f.get .ds).toUInt16
      stack := [f.get .rip, f.get .cs, f.get .rflags, f.get .rsp, f.get .ss] ++ p.stack } := by
    simp only [restored, pushed, loaded, selected, setGeneral, Processor.mk.injEq, fields, true_and]
    refine ⟨?_, rfl⟩
    funext r
    cases r <;> rfl
  rw [restore, hSequence, foldlM_part (foldlM_select hHolds), foldlM_part hLoads,
    foldlM_part hPushes, loadGeneral, foldlM_step hLast, hResult]
  rfl

end Supervisor.Processor
