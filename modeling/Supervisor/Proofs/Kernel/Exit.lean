import Supervisor.Proofs.Kernel.Run
import Supervisor.Proofs.Table.HandleSafety
import Supervisor.Proofs.Table.Runner

/-! How an exit ends when other processors come in between its two steps. It leaves the kernel just
when its environment was not released and no other was entered last. -/

namespace Supervisor.Kernel

open Effect

variable {c : Capacity} {μ : Type} {build : Build} {k k' : Kernel c μ}
  {calls gap : List (Call c μ)} {command : Command μ} {slot : Nat} {machine : μ} {free : List Nat}

/-- Whether a command runs, destroys, yields or creates an environment, which is what processors do
to a kernel that is up. -/
def Command.isShared : Command μ → Bool
  | .run _ | .destroy _ | .yieldCurrent _ | .table (.create _ _ _ _) => true
  | _ => false

def lastEntered? (build : Build) (calls : List (Call c μ)) : Option Nat :=
  (Table.deeds build (tableEvents build calls)).findSome? Table.Deed.enters?

theorem request?_of_isShared (hShared : command.isShared) :
    command.request? k ≠ some .reset := by
  cases command with
  | table command =>
      cases command with
      | create file kind limit resolver => simp [Command.request?]
      | _ => cases hShared
  | run target => simp [Command.request?]
  | destroy target => simp [Command.request?]
  | yieldCurrent edit => simp [Command.request?]
  | _ => cases hShared

theorem reset_not_mem_tableEvents (build : Build) (hOthers : ∀ call ∈ gap, call.command.isShared) :
    .reset ∉ Table.history (tableEvents build gap) := by
  apply Table.reset_not_mem_history
  intro ev hMem hReset
  obtain ⟨call, hCall, hEvent⟩ := List.mem_filterMap.mp hMem
  obtain ⟨request, hRequest, hStep⟩ := Option.bind_eq_some_iff.mp hEvent
  rw [Table.Event.command_of? hStep] at hReset
  exact request?_of_isShared (hOthers call hCall) (hReset ▸ hRequest)

theorem tableEvents_append (build : Build) (gap calls : List (Call c μ)) :
    tableEvents build (gap ++ calls) = tableEvents build gap ++ tableEvents build calls :=
  List.filterMap_append

theorem machine?_of_isShared (hShared : command.isShared) : command.machine? = none := by
  cases command <;> first | rfl | cases hShared

theorem Run.unique (run : Run build calls k) (run' : Run build calls k') : k = k' := by
  cases run with
  | start =>
      cases run'
      rfl
  | step _ _ _ =>
      cases run'
      rfl

theorem Run.machine_eq (run : Run build calls k) (later : Run build (gap ++ calls) k')
    (hOthers : ∀ call ∈ gap, call.command.isShared) : k'.machine = k.machine := by
  induction gap generalizing k' with
  | nil => rw [run.unique later]
  | cons call gap ih =>
      cases later with
      | @step _ before _ hRun _ _ =>
          have hNone := machine?_of_isShared (hOthers _ (List.mem_cons_self ..))
          rw [step_snd, machine_perform build before, hNone, Option.or_none]
          exact ih hRun fun call hMem => hOthers call (List.mem_cons_of_mem _ hMem)

/-- Unless it was released, the environment that was current is so again exactly if it was entered
last. -/
theorem Run.current_iff (run : Run build calls k) (later : Run build (gap ++ calls) k')
    (hOthers : ∀ call ∈ gap, call.command.isShared) (hCurrent : k.table.current = some slot)
    (hKept : .give slot ∉ Table.history (tableEvents build gap)) :
    k'.table.current = some slot ↔ (lastEntered? build gap).getD slot = slot := by
  have hReset := reset_not_mem_tableEvents build hOthers
  rw [← Table.filterMap_deeds build] at hReset hKept
  have hChange := run.table.between (tableEvents_append build gap calls ▸ later.table)
  rw [hChange.current_eq, hCurrent, Table.current_eq_some_iff
    (mt Table.reset_mem_filterMap.mpr hReset) (mt Table.give_mem_filterMap.mpr hKept)]
  change (lastEntered? build gap).or (some slot) = some slot ↔ _
  cases lastEntered? build gap <;> simp

/-- The second step of an exit in a kernel that has a machine. -/
theorem finishExit_result (sound : k.table.Sound free) (hMachine : k.machine = some machine)
    (handle : Handle) : ((finishExit handle).outcome k).result =
      match k.table.named? handle with
      | none => .error (.panicked (.cannotDestroy handle .badEnvironment))
      | some slot =>
        if k.table.current = some slot then .ok (.yield machine)
        else .error (.panicked (.keptRunning handle)) := by
  rcases Table.destroy_cases sound handle with
    ⟨hNamed, hEnds⟩ | ⟨slot, e, hNamed, -, -, ⟨hOther, hEnds⟩ | ⟨hCurrent, hEnds⟩⟩
  · rw [(finishExit_ends hEnds).outcome_eq, hNamed]
    rfl
  · rw [(finishExit_ends hEnds).outcome_eq, hNamed]
    simp [afterDestroy, hOther, afterExit]
  · rw [(finishExit_ends hEnds).outcome_eq, hNamed]
    simp [afterDestroy, wayOut, hMachine, hCurrent, afterExit, Except.map]

/-- The first step of an exit finds the current environment and changes nothing. After any commands
of other processors the second leaves the kernel exactly if the environment was not released and
nothing else was entered last, and it panics otherwise. -/
theorem exit_raced (run : Run build calls k) (hMachine : k.machine = some machine)
    (hCurrent : k.table.current = some slot) (later : Run build (gap ++ calls) k')
    (hOthers : ∀ call ∈ gap, call.command.isShared) :
    ∃ handle, (beginExit : Op c μ Handle).outcome k = ⟨[], .ok handle, k⟩ ∧
      let result := ((finishExit handle).outcome k').result
      let released := .give slot ∈ Table.history (tableEvents build gap)
      let last := (lastEntered? build gap).getD slot
      (result = .ok (.yield machine) ↔ ¬ released ∧ last = slot) ∧
      (result = .error (.panicked (.cannotDestroy handle .badEnvironment)) ↔ released) ∧
      (result = .error (.panicked (.keptRunning handle)) ↔ ¬ released ∧ last ≠ slot) := by
  have sound := run.table.sound
  obtain ⟨e, hGet, hLive⟩ := sound.current_live hCurrent
  have hBegin := beginExit_ends (μ := μ) sound.hasCurrent
  rw [Table.currentHandle?_of_get? hCurrent hGet] at hBegin
  have hNamed := run.table.named?_later (tableEvents_append build gap calls ▸ later.table)
    (reset_not_mem_tableEvents build hOthers) hGet hLive
  have hResult :=
    finishExit_result later.table.sound ((run.machine_eq later hOthers).trans hMachine) e.handle
  refine ⟨e.handle, hBegin.outcome_eq, ?_⟩
  intro result released last
  by_cases hReleased : released
  · rw [hNamed, if_pos hReleased] at hResult
    simp [result, hResult, hReleased]
  · have hLast := run.current_iff later hOthers hCurrent hReleased
    rw [hNamed, if_neg hReleased] at hResult
    by_cases hSame : last = slot
    · simp [result, hResult, hReleased, hLast.mpr hSame, hSame]
    · simp [result, hResult, hReleased, mt hLast.mp hSame, hSame]

namespace Sample

open Table.Sample (pair)

def exiting : List (Command Unit) :=
  [.run ⟨0x1000⟩, .table (.allocate .reserved .kernel), .table (.allocate .reserved .user),
    .boot ()]

def displaced : List (Command Unit) := .run ⟨0x1001⟩ :: exiting

def forestalled : List (Command Unit) := .destroy ⟨0x1000⟩ :: exiting

def readmitted : List (Command Unit) := .run ⟨0x1000⟩ :: displaced

theorem run_exiting : Run .bare (callsOf .bare exiting : List (Call pair Unit))
    (reached .bare exiting) := run_of_goes (by decide +kernel)

theorem run_displaced : Run .bare (callsOf .bare displaced : List (Call pair Unit))
    (reached .bare displaced) := run_of_goes (by decide +kernel)

theorem run_forestalled : Run .bare (callsOf .bare forestalled : List (Call pair Unit))
    (reached .bare forestalled) := run_of_goes (by decide +kernel)

theorem run_readmitted : Run .bare (callsOf .bare readmitted : List (Call pair Unit))
    (reached .bare readmitted) := run_of_goes (by decide +kernel)

end Sample

/-- In the sample the exit leaves the kernel if its environment is entered again in time. -/
theorem exit_raced_readmitted :
    let before : Kernel Table.Sample.pair Unit := reached .bare Sample.exiting
    let gap := [⟨reached .bare Sample.displaced, .run ⟨0x1000⟩⟩, ⟨before, .run ⟨0x1001⟩⟩]
    Run .bare (callsOf .bare Sample.exiting) before ∧ before.machine = some () ∧
      before.table.current = some 0 ∧
      Run .bare (gap ++ callsOf .bare Sample.exiting) (reached .bare Sample.readmitted) ∧
      (∀ call ∈ gap, call.command.isShared) ∧
      ∃ handle, (beginExit.outcome before) = ⟨[], .ok handle, before⟩ ∧
        ((finishExit handle).outcome
          (reached .bare Sample.readmitted : Kernel Table.Sample.pair Unit)).result =
            .ok (.yield ()) := by
  intro before gap
  have hCurrent : before.table.current = some 0 := by decide +kernel
  have hOthers : ∀ call ∈ gap, call.command.isShared := by simp [gap, Command.isShared]
  have hKept : .give 0 ∉ Table.history (tableEvents .bare gap) := by decide +kernel
  have hLast : (lastEntered? .bare gap).getD 0 = 0 := by decide +kernel
  obtain ⟨handle, hBegin, hLeaves, -⟩ :=
    exit_raced Sample.run_exiting rfl hCurrent Sample.run_readmitted hOthers
  exact ⟨Sample.run_exiting, rfl, hCurrent, Sample.run_readmitted, hOthers, handle, hBegin,
    hLeaves.mpr ⟨hKept, hLast⟩⟩

/-- In the sample the exit comes back if the other environment is entered in between, and does not
find its own environment if that is destroyed in between. -/
theorem exit_overtaken :
    let before : Kernel Table.Sample.pair Unit := reached .bare Sample.exiting
    let displaced : Kernel Table.Sample.pair Unit := reached .bare Sample.displaced
    let forestalled : Kernel Table.Sample.pair Unit := reached .bare Sample.forestalled
    Run .bare (callsOf .bare Sample.exiting) before ∧ before.machine = some () ∧
      beginExit.outcome before = ⟨[], .ok ⟨0x1000⟩, before⟩ ∧
      Run .bare (⟨before, .run ⟨0x1001⟩⟩ :: callsOf .bare Sample.exiting) displaced ∧
      ((finishExit ⟨0x1000⟩).outcome displaced).result =
        .error (.panicked (.keptRunning ⟨0x1000⟩)) ∧
      Run .bare (⟨before, .destroy ⟨0x1000⟩⟩ :: callsOf .bare Sample.exiting) forestalled ∧
      ((finishExit ⟨0x1000⟩).outcome forestalled).result =
        .error (.panicked (.cannotDestroy ⟨0x1000⟩ .badEnvironment)) := by
  intro before displaced forestalled
  have hHandle : before.table.currentHandle? = some ⟨0x1000⟩ := by decide +kernel
  have hBegin := beginExit_ends (μ := Unit) Sample.run_exiting.table.sound.hasCurrent
  rw [hHandle] at hBegin
  have hNamed : displaced.table.named? ⟨0x1000⟩ = some 0 := by decide +kernel
  have hOther : displaced.table.current ≠ some 0 := by decide +kernel
  have hDisplaced := finishExit_result Sample.run_displaced.table.sound rfl ⟨0x1000⟩
  rw [hNamed] at hDisplaced
  have hNone : forestalled.table.named? ⟨0x1000⟩ = none := by decide +kernel
  have hForestalled := finishExit_result Sample.run_forestalled.table.sound rfl ⟨0x1000⟩
  rw [hNone] at hForestalled
  exact ⟨Sample.run_exiting, rfl, hBegin.outcome_eq, Sample.run_displaced,
    hDisplaced.trans (if_neg hOther), Sample.run_forestalled, hForestalled⟩

end Supervisor.Kernel
