import Supervisor.Proofs.Kernel.Run
import Supervisor.Proofs.Processor
import Supervisor.Proofs.Table.SavedFrame

/-! Environments go on where they left off. The frame that one is entered with is the frame that was
stored for it last, word by word. -/

namespace Supervisor.Kernel

open Effect

variable {c : Capacity} {μ : Type} {build : Build} {k : Kernel c μ}

/-- A kernel that enters an environment does so because its table does. -/
theorem dispatch_of_run {free : List Nat} {target : Handle} {machine : μ} {frame : Frame}
    (sound : k.table.Sound free)
    (hResult : ((run target).outcome k).result = .ok (.enter machine frame)) :
    ((Table.dispatch target).outcome k.table).result = .ok (.enter frame) := by
  have hDispatch : ∃ r t', (Table.dispatch target).Ends k.table [] r t' := by
    rcases Table.dispatch_cases sound target with
      ⟨error, hEnds⟩ | ⟨cause, t', hEnds⟩ | ⟨next, t', hEnds, -⟩
    · exact ⟨_, _, hEnds⟩
    · exact ⟨_, _, hEnds⟩
    · exact ⟨_, _, hEnds⟩
  obtain ⟨r, t', hEnds⟩ := hDispatch
  rw [(run_ends hEnds).outcome_eq] at hResult
  rw [hEnds.outcome_eq]
  exact (departed_eq_enter.mp hResult).2

/-- Whatever is entered goes on from the frame that was stored for it last. A command that neither
releases an environment nor changes its frame leaves the frame as it is, and the restore sequence
carries all of it into the processor. -/
theorem resumes_last_stored {calls : List (Call c μ)} (run : Run build calls k) :
    let stored := fun slot => Table.lastStored build slot (tableEvents build calls)
    (∀ target frame, ((Table.dispatch target).outcome k.table).result = .ok (.enter frame) →
      ∃ slot e, k.table.named? target = some slot ∧ stored slot = some frame ∧
        ((Table.dispatch target).outcome k.table).state.current = some slot ∧
        ((Table.dispatch target).outcome k.table).state.get? slot = some e ∧ e.frame = frame) ∧
      (∀ target machine frame,
        ((Kernel.run target).outcome k).result = .ok (.enter machine frame) →
          ∃ slot, k.table.named? target = some slot ∧ stored slot = some frame) ∧
      (∀ slot e, k.table.get? slot = some e → e.status ≠ .free → stored slot = some e.frame) ∧
      (∀ command ev slot e, Table.Event.of? build k.table command = some ev →
        k.table.get? slot = some e → e.status ≠ .free →
        .reset ∉ ev.actions → .give slot ∉ ev.actions → ev.edited? ≠ some slot →
          ∃ e', ev.after.get? slot = some e' ∧ e'.tenant = e.tenant ∧ e'.status ≠ .free ∧
            e'.frame = e.frame) ∧
      ∀ (memory : Words) (p : Processor) (frame : Frame),
        Processor.Holds memory (p.general .rdi) frame →
          p.restore memory = some {
            general := fun r => frame.get (.general r)
            es := (frame.get .es).toUInt16
            ds := (frame.get .ds).toUInt16
            stack := [frame.get .rip, frame.get .cs, frame.get .rflags, frame.get .rsp,
              frame.get .ss] ++ p.stack } := by
  intro stored
  have table := run.table
  refine ⟨fun target frame => table.entered, ?_, table.keeps, ?_,
    fun memory p frame => Processor.restore_eq⟩
  · intro target machine frame hResult
    obtain ⟨slot, -, hNamed, hStored, -⟩ := table.entered (dispatch_of_run table.sound hResult)
    exact ⟨slot, hNamed, hStored⟩
  · intro command ev slot e hStep hGet hLive hReset hGive hEdited
    exact Table.Event.frame_kept table.sound hStep hReset hGive hEdited hGet hLive

namespace Sample

open Table.Sample (pair)

def commands : List (Command Unit) :=
  [.run ⟨0x1001⟩, .yieldCurrent (·.set (.general .rax) 7), .run ⟨0x1000⟩,
    .table (.allocate .reserved .kernel), .table (.allocate .reserved .user), .boot ()]

def calls : List (Call pair Unit) := callsOf .bare commands

def last : Kernel pair Unit := reached .bare commands

/-- The frame that the first environment yielded with. -/
def yieldedFrame : Frame :=
  (Frame.initial (.initial .bare .user) Layout.stackTop).set (.general .rax) 7

def enteredFrame? : Departure Unit → Option Frame
  | .enter _ frame => some frame
  | .yield _ => none

theorem eq_enter {r : Except (Stop Error) (Departure Unit)} {frame : Frame}
    (h : r.toOption.bind enteredFrame? = some frame) : r = .ok (.enter () frame) := by
  match r with
  | .ok (.enter () other) =>
      cases h
      rfl
  | .ok (.yield ()) => cases h
  | .error stop => cases h

theorem run_last : Run .bare calls last := run_of_goes (by decide +kernel)

end Sample

theorem resumes_last_stored_yielded :
    Run .bare Sample.calls Sample.last ∧
      ((Kernel.run ⟨0x1000⟩).outcome Sample.last).result = .ok (.enter () Sample.yieldedFrame) ∧
      (∃ slot, Sample.last.table.named? ⟨0x1000⟩ = some slot ∧
        Table.lastStored .bare slot (tableEvents .bare Sample.calls) =
          some Sample.yieldedFrame) ∧
      ∃ p, (Processor.calledWith 0x8000).restore (Sample.yieldedFrame.storedAt 0x8000) = some p ∧
        p.general .rax = 7 := by
  have hResult : ((Kernel.run ⟨0x1000⟩).outcome Sample.last).result =
      .ok (.enter () Sample.yieldedFrame) := Sample.eq_enter (by decide +kernel)
  obtain ⟨-, hEnter, -, -, hRestore⟩ := resumes_last_stored Sample.run_last
  have hStored := hEnter ⟨0x1000⟩ () Sample.yieldedFrame hResult
  have hHolds := Processor.holds_storedAt 0x8000 Sample.yieldedFrame
  exact ⟨Sample.run_last, hResult, hStored, _,
    hRestore _ (Processor.calledWith 0x8000) Sample.yieldedFrame hHolds,
    Frame.get_set_same _ _ _⟩

end Supervisor.Kernel
