import Supervisor.Kernel.Session
import Supervisor.Proofs.SymbolIndex
import Supervisor.Proofs.Table.Slot

/-! What the operations of a kernel make of the outcome of the one operation on the table that each
of them carries out. -/

namespace Supervisor.Kernel

open Effect

variable {c : Capacity} {μ α : Type} {k : Kernel c μ} {t' : Table c} {writes : List Write}
  {target : Handle}

theorem onTable_ends {op : Table.Op c α} {r : Except (Stop Error) α}
    (h : op.Ends k.table writes r t') :
    (onTable op : Op c μ α).Ends k writes r { k with table := t' } :=
  ends_focus h

/-- The machine that a kernel leaves through. There is no leaving without one. -/
def wayOut (k : Kernel c μ) : Except (Stop Error) μ :=
  match k.machine with
  | some machine => .ok machine
  | none => .error (.panicked .noMachine)

theorem theMachine_ends (k : Kernel c μ) : theMachine.Ends k [] k.wayOut k := by
  apply (ends_state k).andThen
  unfold wayOut
  cases k.machine with
  | some machine => exact Ends.pure machine k
  | none => exact ends_panic _ k

theorem leave_ends (k : Kernel c μ) (g : μ → α) :
    (theMachine >>= fun machine => pure (g machine)).Ends k [] (k.wayOut.map g) k :=
  (theMachine_ends k).map

theorem boot_ends (k : Kernel c μ) (machine : μ) :
    (boot machine).Ends k [] (.ok ())
      { k with table := .new, machine := some (k.machine.getD machine) } :=
  (onTable_ends (ends_update _ _)).andThen (ends_update _ _)

/-- Where a run goes once the dispatch is over. -/
def departed (k : Kernel c μ) (target : Handle) :
    Except (Stop Error) Table.Dispatch → Except (Stop Error) (Departure μ)
  | .ok (.enter frame) => k.wayOut.map (.enter · frame)
  | .ok .yield => k.wayOut.map .yield
  | .error (.refused _) => k.wayOut.bind fun _ => .error (.panicked (.notRunnable target))
  | .error (.panicked cause) => .error (.panicked cause)

theorem run_ends {r : Except (Stop Error) Table.Dispatch}
    (h : (Table.dispatch target).Ends k.table writes r t') :
    (run target).Ends k writes (k.departed target r) { k with table := t' } := by
  have hCaught := ends_catchRefusal (ε := Error) (onTable_ends h)
  have hMachine := theMachine_ends { k with table := t' }
  match r with
  | .error (.panicked cause) => exact hCaught.bind_stop
  | .ok (.enter frame) =>
      apply hCaught.andLast
      exact leave_ends { k with table := t' } (Departure.enter · frame)
  | .ok .yield =>
      apply hCaught.andLast
      exact leave_ends { k with table := t' } Departure.yield
  | .error (.refused error) =>
      apply hCaught.andLast
      show Ends _ _ _ (k.wayOut.bind _) _
      cases hOut : k.wayOut with
      | ok machine =>
          have hFound : theMachine.Ends { k with table := t' } [] (.ok machine) _ := hOut ▸ hMachine
          exact hFound.andThen ((ends_log _ _ _).andThen (ends_panic _ _))
      | error stop =>
          have hNone : theMachine.Ends { k with table := t' } [] (.error stop) _ := hOut ▸ hMachine
          exact hNone.bind_stop

/-- A run enters an environment just when the dispatch does and there is a machine to leave by. -/
theorem departed_eq_enter {r : Except (Stop Error) Table.Dispatch} {machine : μ} {frame : Frame} :
    k.departed target r = .ok (.enter machine frame) ↔
      k.machine = some machine ∧ r = .ok (.enter frame) := by
  match r with
  | .ok (.enter other) =>
      cases hMachine : k.machine <;> simp [departed, wayOut, hMachine, Except.map]
  | .ok .yield =>
      cases hMachine : k.machine <;> simp [departed, wayOut, hMachine, Except.map]
  | .error (.refused error) =>
      cases hMachine : k.machine <;> simp [departed, wayOut, hMachine, Except.bind]
  | .error (.panicked cause) => simp [departed]

/-- Where the destruction of an environment leads. -/
def afterDestroy (k : Kernel c μ) :
    Except (Stop Error) Table.Destroyed → Except (Stop Error) (Option (Departure μ))
  | .ok .dying => .ok none
  | .ok .releasedCurrent => k.wayOut.map fun machine => some (.yield machine)
  | .error stop => .error stop

theorem destroy_ends {r : Except (Stop Error) Table.Destroyed}
    (h : (Table.destroy target).Ends k.table writes r t') :
    (destroy target).Ends k writes (k.afterDestroy r) { k with table := t' } := by
  have hTable := onTable_ends h
  match r with
  | .ok .dying => exact hTable.andLast (Ends.pure none _)
  | .ok .releasedCurrent =>
      apply hTable.andLast
      exact leave_ends { k with table := t' } fun machine => some (Departure.yield machine)
  | .error stop => exact hTable.bind_stop

/-- Whose exit it is. -/
theorem beginExit_ends (hCurrent : k.table.HasCurrent) :
    (beginExit : Op c μ Handle).Ends k [] (match k.table.currentHandle? with
      | some handle => .ok handle
      | none => .error (.panicked .nothingToExit)) k := by
  have hTable := onTable_ends (Table.currentHandle_ends hCurrent)
  cases hHandle : k.table.currentHandle? with
  | some handle =>
      rw [hHandle] at hTable
      exact hTable.andThen (Ends.pure handle _)
  | none =>
      rw [hHandle] at hTable
      exact hTable.andThen ((ends_log _ _ _).andThen (ends_panic _ _))

/-- Where an exit leads: out of the kernel, or to a panic. -/
def afterExit (current : Handle) :
    Except (Stop Error) (Option (Departure μ)) → Except (Stop Error) (Departure μ)
  | .ok (some departure) => .ok departure
  | .ok none => .error (.panicked (.keptRunning current))
  | .error (.refused error) => .error (.panicked (.cannotDestroy current error))
  | .error (.panicked cause) => .error (.panicked cause)

theorem finishExit_ends {r : Except (Stop Error) Table.Destroyed}
    (h : (Table.destroy target).Ends k.table writes r t') :
    (finishExit target).Ends k writes (afterExit target (k.afterDestroy r))
      { k with table := t' } := by
  have hCaught := ends_catchRefusal (ε := Error) (destroy_ends h)
  unfold finishExit
  match hDestroyed : k.afterDestroy r with
  | .ok (some departure) =>
      rw [hDestroyed] at hCaught
      exact hCaught.andLast (Ends.pure departure _)
  | .ok none =>
      rw [hDestroyed] at hCaught
      exact hCaught.andLast (ends_panic _ _)
  | .error (.refused error) =>
      rw [hDestroyed] at hCaught
      exact hCaught.andLast (ends_panic _ _)
  | .error (.panicked cause) =>
      rw [hDestroyed] at hCaught
      exact hCaught.bind_stop

/-- Where a yield leads once the frame is saved. -/
def yielded (k : Kernel c μ) : Except (Stop Error) Bool → Except (Stop Error) (Departure μ)
  | .ok true => k.wayOut.map .yield
  | .ok false => .error (.panicked .nothingToYield)
  | .error stop => .error stop

theorem yieldCurrent_ends {frame : Frame} {r : Except (Stop Error) Bool}
    (h : (Table.editCurrentFrame fun _ => frame).Ends k.table writes r t') :
    (yieldCurrent frame).Ends k writes (k.yielded r) { k with table := t' } := by
  have hTable := onTable_ends h
  match r with
  | .ok true =>
      apply hTable.andLast
      exact leave_ends { k with table := t' } Departure.yield
  | .ok false => exact hTable.andLast ((ends_log _ _ _).andThen (ends_panic _ _))
  | .error stop => exact hTable.bind_stop

/-- What a creation gives that the kernel cannot do without. -/
def created : Except (Stop Error) Handle → Except (Stop Error) Handle
  | .ok handle => .ok handle
  | .error (.refused .invalidExecutable) => .error (.panicked .binaryRejected)
  | .error (.refused error) => .error (.panicked (.cannotAllocate error))
  | .error (.panicked cause) => .error (.panicked cause)

/-- An image that is refused leaves the index as it is. -/
theorem loadSymbols_refuses {file : Buffer} {error : Elf.Error}
    (hRefused : (SymbolIndex.ofImage file).Ends () [] (.error (.refused error)) ())
    (k : Kernel c μ) : (loadSymbols file).Ends k [] (.ok (.error error)) k := by
  have hAttempt : (attempt (SymbolIndex.ofImage file) : Op c μ _).Ends k []
      (.ok (.error error)) k := ends_attempt hRefused k
  exact hAttempt.andThen (Ends.pure _ k)

theorem loadSymbols_replaces {file : Buffer} {index : SymbolIndex}
    (hIndex : (SymbolIndex.ofImage file).Ends () [] (.ok index) ()) (k : Kernel c μ) :
    (loadSymbols file).Ends k [] (.ok (.ok index.count)) { k with symbols := index } := by
  have hAttempt : (attempt (SymbolIndex.ofImage file) : Op c μ _).Ends k [] (.ok (.ok index)) k :=
    ends_attempt (r := .ok index) hIndex k
  exact hAttempt.andThen ((ends_update _ k).andThen (Ends.pure _ _))

theorem loadSymbols_cases (k : Kernel c μ) (file : Buffer) :
    (∃ error, (loadSymbols file).Ends k [] (.ok (.error error)) k) ∨
      ∃ image, Elf.Image.parse file = .ok image ∧
        let index := (SymbolIndex.functions image).foldl .add .empty
        (loadSymbols file).Ends k [] (.ok (.ok index.count)) { k with symbols := index } := by
  rcases SymbolIndex.ofImage_cases file with ⟨error, hRefused⟩ | ⟨image, hParse, hIndex⟩
  · exact .inl ⟨error, loadSymbols_refuses hRefused k⟩
  · exact .inr ⟨image, hParse, loadSymbols_replaces hIndex k⟩

section Creation

variable {build : Build} {file : Buffer} {kind : Kind} {limit : UInt64}
  {resolver : Loading.Resolver}

theorem createOrPanic_ends {r : Except (Stop Error) Handle} (hSize : file.size ≠ 0)
    (h : (Table.create build file kind limit resolver).Ends k.table writes r t') :
    (createOrPanic build file kind limit resolver : Op c μ Handle).Ends k writes (created r)
      { k with table := t' } := by
  have hCaught := ends_catchRefusal (ε := Error) (onTable_ends h)
  unfold createOrPanic
  rw [if_neg hSize]
  match r with
  | .ok handle => exact hCaught.andLast (Ends.pure handle _)
  | .error (.refused error) =>
      apply hCaught.andLast
      cases error <;> exact ends_panic _ _
  | .error (.panicked cause) => exact hCaught.bind_stop

theorem createOrPanic_empty (k : Kernel c μ) (hSize : file.size = 0) :
    (createOrPanic build file kind limit resolver : Op c μ Handle).Ends k []
      (.error (.panicked .emptyBinary)) k := by
  unfold createOrPanic
  rw [if_pos hSize]
  exact ends_panic _ k

theorem createInMemory_ends {r : Except (Stop Error) Handle} (hSize : file.size ≠ 0)
    (h : (Table.create build file kind Layout.userTop k.symbols.resolver).Ends k.table writes r
      t') :
    (createInMemory build file kind : Op c μ Handle).Ends k writes (created r)
      { k with table := t' } :=
  (ends_state k).andThen (createOrPanic_ends hSize h)

theorem createInMemory_empty (k : Kernel c μ) (hSize : file.size = 0) :
    (createInMemory build file kind : Op c μ Handle).Ends k []
      (.error (.panicked .emptyBinary)) k := by
  apply (ends_state k).andThen
  exact createOrPanic_empty k hSize

end Creation

namespace Command

/-- The machine that a command gives the kernel. -/
def machine? : Command μ → Option μ
  | boot machine | start machine => some machine
  | _ => none

/-- The image that a command loads functions from. -/
def library? : Command μ → Option Buffer
  | loadSymbols file => some file
  | _ => none

end Command

section Preserves

variable {τ : Type} {view : Kernel c μ → τ}
  (hView : ∀ (table : Table c) (k : Kernel c μ), view { k with table } = view k)

theorem preserves_theMachine : (theMachine : Op c μ μ).Preserves view := by
  refine preserves_state.bind fun k => ?_
  cases k.machine with
  | some machine => exact preserves_pure machine
  | none => exact preserves_throw _

include hView

theorem preserves_onTable (op : Table.Op c α) : (onTable op : Op c μ α).Preserves view :=
  preserves_focus op hView

theorem preserves_createOrPanic (build : Build) (file : Buffer) (kind : Kind) (limit : UInt64)
    (resolver : Loading.Resolver) :
    (createOrPanic build file kind limit resolver : Op c μ Handle).Preserves view := by
  unfold createOrPanic
  split
  · exact preserves_throw _
  · refine (preserves_onTable hView _).catchRefusal.bind fun found => ?_
    match found with
    | .ok handle => exact preserves_pure handle
    | .error error => cases error <;> exact preserves_throw _

theorem preserves_run (target : Handle) :
    (Kernel.run target : Op c μ (Departure μ)).Preserves view := by
  refine (preserves_onTable hView _).catchRefusal.bind fun next => ?_
  refine preserves_theMachine.bind fun machine => ?_
  match next with
  | .ok (.enter frame) => exact preserves_pure _
  | .ok .yield => exact preserves_pure _
  | .error error => exact (preserves_log _ _).bind fun _ => preserves_throw _

theorem preserves_destroy (target : Handle) :
    (Kernel.destroy target : Op c μ (Option (Departure μ))).Preserves view := by
  refine (preserves_onTable hView _).bind fun outcome => ?_
  cases outcome with
  | dying => exact preserves_pure none
  | releasedCurrent => exact preserves_theMachine.bind fun _ => preserves_pure _

theorem preserves_exitCurrent : (exitCurrent : Op c μ (Departure μ)).Preserves view := by
  have hBegin : (beginExit : Op c μ Handle).Preserves view := by
    refine (preserves_onTable hView _).bind fun current => ?_
    cases current with
    | some handle => exact preserves_pure handle
    | none => exact (preserves_log _ _).bind fun _ => preserves_throw _
  refine hBegin.bind fun current =>
    (preserves_destroy hView current).catchRefusal.bind fun found => ?_
  match found with
  | .ok (some departure) => exact preserves_pure departure
  | .ok none => exact preserves_throw _
  | .error error => exact preserves_throw _

theorem preserves_yieldCurrent (frame : Frame) :
    (yieldCurrent frame : Op c μ (Departure μ)).Preserves view := by
  refine (preserves_onTable hView _).bind fun saved => ?_
  cases saved with
  | true => exact preserves_theMachine.bind fun _ => preserves_pure _
  | false => exact (preserves_log _ _).bind fun _ => preserves_throw _

theorem preserves_boot {machine : μ}
    (hMachine : ∀ machine (k : Kernel c μ), view { k with machine } = view k) :
    (boot machine : Op c μ Unit).Preserves view :=
  (preserves_onTable hView _).bind fun _ => preserves_update fun k => hMachine _ k

/-- A command changes the table, the machine if it gives one and the index if it loads one. -/
theorem preserves_perform (build : Build) {command : Command μ}
    (hMachine : command.machine?.isSome → ∀ machine (k : Kernel c μ),
      view { k with machine } = view k)
    (hSymbols : command.library?.isSome → ∀ symbols (k : Kernel c μ),
      view { k with symbols } = view k) :
    (command.perform build : Op c μ (Answer μ)).Preserves view := by
  cases command with
  | table command => exact (preserves_onTable hView _).bind fun _ => preserves_pure _
  | currentEnvironment => exact (preserves_onTable hView _).bind fun _ => preserves_pure _
  | slotContent slot => exact preserves_state.bind fun _ => preserves_pure _
  | capacity => exact preserves_state.bind fun _ => preserves_pure _
  | fill rounds parent kind =>
      exact (preserves_onTable hView _).quietly.bind fun _ => preserves_pure _
  | churn rounds parent kind =>
      exact (preserves_onTable hView _).quietly.bind fun _ => preserves_pure _
  | boot machine => exact (preserves_boot hView (hMachine rfl)).bind fun _ => preserves_pure _
  | start machine => exact (preserves_boot hView (hMachine rfl)).bind fun _ => preserves_pure _
  | createOrPanic file kind limit resolver =>
      exact (preserves_createOrPanic hView build file kind limit resolver).bind
        fun _ => preserves_pure _
  | createInMemory file kind =>
      have hCreate : (createInMemory build file kind : Op c μ Handle).Preserves view :=
        preserves_state.bind fun k => preserves_createOrPanic hView build file kind _ _
      exact hCreate.bind fun _ => preserves_pure _
  | loadSymbols file =>
      have hLoad : (loadSymbols file : Op c μ (Except Elf.Error Nat)).Preserves view := by
        refine (preserves_attempt _).bind fun found => ?_
        cases found with
        | error error => exact preserves_pure _
        | ok symbols =>
            exact (preserves_update fun k => hSymbols rfl _ k).bind fun _ => preserves_pure _
      exact hLoad.bind fun _ => preserves_pure _
  | run target => exact (preserves_run hView target).bind fun _ => preserves_pure _
  | destroy target =>
      refine (preserves_destroy hView target).bind fun departure? => ?_
      cases departure? <;> exact preserves_pure _
  | exitCurrent => exact (preserves_exitCurrent hView).bind fun _ => preserves_pure _
  | yieldCurrent edit =>
      exact (preserves_onTable hView _).bind fun current =>
        (preserves_yieldCurrent hView _).bind fun _ => preserves_pure _

end Preserves

end Supervisor.Kernel
