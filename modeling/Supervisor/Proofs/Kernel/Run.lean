import Supervisor.Kernel.Session
import Supervisor.Proofs.Kernel.Operations
import Supervisor.Proofs.Table.Run

/-! Runs of a kernel, and the runs of its table. Each command of a kernel carries out at most one of
the table, so what holds of every run of a table holds of the table of a kernel. -/

namespace Supervisor.Kernel

open Effect

variable {c : Capacity} {μ : Type} {build : Build} {k : Kernel c μ} {command : Command μ}
  {request : Table.Command}

/-- The frame of the current environment, or the zero frame. -/
def currentFrame (k : Kernel c μ) : Frame :=
  ((k.table.current.bind k.table.get?).map (·.frame)).getD .zero

namespace Command

/-- Workloads are many commands of the table in one. -/
def isWorkload : Command μ → Bool
  | fill _ _ _ | churn _ _ _ => true
  | _ => false

/-- What a command asks of the table. -/
def request? (k : Kernel c μ) : Command μ → Option Table.Command
  | table command => some command
  | boot _ | start _ => some .reset
  | createOrPanic file kind limit resolver =>
      if file.size = 0 then none else some (.create file kind limit resolver)
  | createInMemory file kind =>
      if file.size = 0 then none
      else some (.create file kind Layout.userTop k.symbols.resolver)
  | run target => some (.dispatch target)
  | destroy target => some (.destroy target)
  | exitCurrent => k.table.currentHandle?.map .destroy
  | yieldCurrent edit => some (.editCurrentFrame fun _ => edit k.currentFrame)
  | currentEnvironment | slotContent _ | capacity | loadSymbols _ => none
  | fill _ _ _ | churn _ _ _ => none

end Command

/-- The command leaves the table as its request does, and panics if its request does. -/
def Serves (build : Build) (k : Kernel c μ) (command : Command μ) (request : Table.Command) :
    Prop :=
  ∀ writes r t', (request.perform build).Ends k.table writes r t' →
    ∃ r' k', (command.perform build).Ends k writes r' k' ∧ k'.table = t' ∧
      ∀ cause, r = .error (.panicked cause) → ∃ cause', r' = .error (.panicked cause')

/-- A command that asks nothing of the table leaves it alone. -/
def Spares (build : Build) (k : Kernel c μ) (command : Command μ) : Prop :=
  ((command.perform build).outcome k).state.table = k.table

/-- A command that carries out one operation on the table serves the request for it, if all that
comes after passes a panic on. -/
theorem serves_of_ends {α : Type} {op : Table.Op c α} {g : α → Table.Answer}
    {next : Except (Stop Error) α → Except (Stop Error) (Answer μ)}
    (hRequest : request.perform build = op >>= fun a => pure (g a))
    (hInjective : ∀ a b, g a = g b → a = b)
    (hKernel : ∀ writes r t', op.Ends k.table writes r t' →
      (command.perform build).Ends k writes (next r) { k with table := t' })
    (hPanic : ∀ cause, next (.error (.panicked cause)) = .error (.panicked cause)) :
    Serves build k command request := by
  intro writes r t' hEnds
  rw [hRequest] at hEnds
  obtain ⟨r₀, hOp, rfl⟩ := hEnds.of_map hInjective
  refine ⟨_, _, hKernel writes r₀ t' hOp, rfl, ?_⟩
  intro cause hStopped
  cases r₀ with
  | ok a => cases hStopped
  | error stop =>
      cases hStopped
      exact ⟨cause, hPanic cause⟩

theorem serves_table (build : Build) (k : Kernel c μ) (command : Table.Command) :
    Serves build k (.table command) command := by
  intro writes r t' hEnds
  refine ⟨_, _, (onTable_ends hEnds).map, rfl, ?_⟩
  rintro cause rfl
  exact ⟨cause, rfl⟩

theorem serves_reset {answer : Answer μ} {k' : Kernel c μ}
    (hEnds : (command.perform build).Ends k [] (.ok answer) k') (hTable : k'.table = .new) :
    Serves build k command .reset := by
  intro writes r t' hRequest
  have hReset : (Table.Command.reset.perform build).Ends k.table [] (.ok .done) .new :=
    (ends_update _ _).andThen (Ends.pure _ _)
  cases hRequest.outcome_eq.symm.trans hReset.outcome_eq
  refine ⟨_, _, hEnds, hTable, ?_⟩
  rintro cause ⟨⟩

theorem serves_run (build : Build) (k : Kernel c μ) (target : Handle) :
    Serves build k (.run target) (.dispatch target) :=
  serves_of_ends rfl (fun _ _ => Table.Answer.dispatched.inj)
    (fun _ _ _ hEnds => (run_ends hEnds).map) fun _ => rfl

/-- The answer to a destruction that is not refused. -/
def Answer.ofDestroy : Option (Departure μ) → Answer μ
  | none => .done
  | some departure => .departed departure

theorem serves_destroy (build : Build) (k : Kernel c μ) (target : Handle) :
    Serves build k (.destroy target) (.destroy target) := by
  have hKernel (writes : List Write) (r : Except (Stop Error) Table.Destroyed) (t' : Table c)
      (hEnds : (Table.destroy target).Ends k.table writes r t') :
      (Command.perform build (.destroy target)).Ends k writes
        ((k.afterDestroy r).map Answer.ofDestroy) { k with table := t' } := by
    have hDestroy := destroy_ends hEnds
    match hResult : k.afterDestroy r with
    | .ok none =>
        rw [hResult] at hDestroy
        exact hDestroy.andLast (Ends.pure _ _)
    | .ok (some departure) =>
        rw [hResult] at hDestroy
        exact hDestroy.andLast (Ends.pure _ _)
    | .error stop =>
        rw [hResult] at hDestroy
        exact hDestroy.bind_stop
  exact serves_of_ends rfl (fun _ _ => Table.Answer.destroyed.inj) hKernel fun _ => rfl

theorem serves_exit (build : Build) {current : Handle} (hCurrent : k.table.HasCurrent)
    (hHandle : k.table.currentHandle? = some current) :
    Serves build k .exitCurrent (.destroy current) := by
  have hBegin := beginExit_ends (μ := μ) hCurrent
  rw [hHandle] at hBegin
  exact serves_of_ends rfl (fun _ _ => Table.Answer.destroyed.inj)
    (fun _ _ _ hEnds => (hBegin.andThen (finishExit_ends hEnds)).map) fun _ => rfl

theorem serves_yield (build : Build) (hCurrent : k.table.HasCurrent) (edit : Frame → Frame) :
    Serves build k (.yieldCurrent edit) (.editCurrentFrame fun _ => edit k.currentFrame) := by
  have hFound := onTable_ends (Table.currentEnvironment_ends hCurrent)
  exact serves_of_ends rfl (fun _ _ => Table.Answer.changed.inj)
    (fun _ _ _ hEnds => hFound.andThen (yieldCurrent_ends hEnds).map) fun _ => rfl

section Creation

variable {file : Buffer} {kind : Kind} {limit : UInt64} {resolver : Loading.Resolver}

theorem serves_createOrPanic (build : Build) (k : Kernel c μ) (hSize : file.size ≠ 0) :
    Serves build k (.createOrPanic file kind limit resolver)
      (.create file kind limit resolver) :=
  serves_of_ends rfl (fun _ _ => Table.Answer.issued.inj)
    (fun _ _ _ hEnds => (createOrPanic_ends hSize hEnds).map) fun _ => rfl

theorem serves_createInMemory (build : Build) (k : Kernel c μ) (hSize : file.size ≠ 0) :
    Serves build k (.createInMemory file kind)
      (.create file kind Layout.userTop k.symbols.resolver) :=
  serves_of_ends rfl (fun _ _ => Table.Answer.issued.inj)
    (fun _ _ _ hEnds => (createInMemory_ends hSize hEnds).map) fun _ => rfl

end Creation

theorem spares_of_ends {writes : List Write} {r : Except (Stop Error) (Answer μ)}
    (hEnds : (command.perform build).Ends k writes r k) : Spares build k command := by
  rw [Spares, hEnds.outcome_eq]

/-- Whatever the image of the functions holds, the table is left alone. -/
theorem spares_loadSymbols (build : Build) (k : Kernel c μ) (file : Buffer) :
    Spares build k (.loadSymbols file) := by
  rcases loadSymbols_cases k file with ⟨error, hEnds⟩ | ⟨image, -, hEnds⟩
  · exact spares_of_ends hEnds.map
  · rw [Spares, Command.perform, hEnds.map.outcome_eq]

/-- A request is served if there is one, and if not the table is left alone. -/
theorem serves_or_spares (build : Build) {free : List Nat} (sound : k.table.Sound free)
    (hSingle : command.isWorkload = false) :
    (∃ request, command.request? k = some request ∧ Serves build k command request) ∨
      command.request? k = none ∧ Spares build k command := by
  cases command with
  | table command => exact .inl ⟨_, rfl, serves_table build k command⟩
  | currentEnvironment =>
      have hFound := onTable_ends (Table.currentEnvironment_ends sound.hasCurrent)
      exact .inr ⟨rfl, spares_of_ends hFound.map⟩
  | slotContent slot =>
      exact .inr ⟨rfl, spares_of_ends ((ends_state k).andThen (Ends.pure _ _))⟩
  | capacity => exact .inr ⟨rfl, spares_of_ends ((ends_state k).andThen (Ends.pure _ _))⟩
  | fill rounds parent kind => cases hSingle
  | churn rounds parent kind => cases hSingle
  | boot machine => exact .inl ⟨_, rfl, serves_reset (boot_ends k machine).map rfl⟩
  | start machine => exact .inl ⟨_, rfl, serves_reset (boot_ends k machine).map rfl⟩
  | createOrPanic file kind limit resolver =>
      by_cases hSize : file.size = 0
      · exact .inr ⟨if_pos hSize, spares_of_ends (createOrPanic_empty k hSize).map⟩
      · exact .inl ⟨_, if_neg hSize, serves_createOrPanic build k hSize⟩
  | createInMemory file kind =>
      by_cases hSize : file.size = 0
      · exact .inr ⟨if_pos hSize, spares_of_ends (createInMemory_empty k hSize).map⟩
      · exact .inl ⟨_, if_neg hSize, serves_createInMemory build k hSize⟩
  | loadSymbols file => exact .inr ⟨rfl, spares_loadSymbols build k file⟩
  | run target => exact .inl ⟨_, rfl, serves_run build k target⟩
  | destroy target => exact .inl ⟨_, rfl, serves_destroy build k target⟩
  | exitCurrent =>
      cases hHandle : k.table.currentHandle? with
      | some current =>
          refine .inl ⟨.destroy current, ?_, serves_exit build sound.hasCurrent hHandle⟩
          simp only [Command.request?, hHandle, Option.map_some]
      | none =>
          have hBegin := beginExit_ends (μ := μ) sound.hasCurrent
          rw [hHandle] at hBegin
          refine .inr ⟨?_, spares_of_ends hBegin.bind_stop.map⟩
          simp only [Command.request?, hHandle, Option.map_none]
  | yieldCurrent edit => exact .inl ⟨_, rfl, serves_yield build sound.hasCurrent edit⟩

/-- The machine stays the one that was given first. -/
theorem machine_perform (build : Build) (k : Kernel c μ) (command : Command μ) :
    ((command.perform build).outcome k).state.machine = k.machine.or command.machine? := by
  have hBoot (machine : μ) : some (k.machine.getD machine) = k.machine.or (some machine) := by
    cases k.machine <;> rfl
  cases hGiven : command.machine? with
  | none =>
      have hKept : (command.perform build : Op c μ (Answer μ)).Preserves Kernel.machine :=
        preserves_perform (fun _ _ => rfl) build (by simp [hGiven]) fun _ _ _ => rfl
      rw [hKept.outcome, Option.or_none]
  | some machine =>
      cases command with
      | boot machine =>
          cases hGiven
          rw [Command.perform, (boot_ends k machine).map.outcome_eq]
          exact hBoot machine
      | start machine =>
          cases hGiven
          rw [Command.perform, (boot_ends k machine).map.outcome_eq]
          exact hBoot machine
      | _ => cases hGiven

/-- A command that was given to a kernel. -/
structure Call (c : Capacity) (μ : Type) where
  before : Kernel c μ
  command : Command μ

/-- What a call made of the table. -/
def Call.event? (build : Build) (call : Call c μ) : Option (Table.Event c) :=
  (call.command.request? call.before).bind (Table.Event.of? build call.before.table)

/-- The calls of a run, the latest first, and the kernel that it ends with. Workloads are taken
apart into their commands, and a run goes on until the kernel halts. -/
inductive Run (build : Build) : List (Call c μ) → Kernel c μ → Prop where
  | start : Run build [] new
  | step {calls : List (Call c μ)} {k : Kernel c μ} {command : Command μ}
      (hRun : Run build calls k) (hSingle : command.isWorkload = false)
      (hGoes : (Kernel.step build k command).1.halts = false) :
      Run build (⟨k, command⟩ :: calls) (Kernel.step build k command).2

/-- The kernel that commands lead to, given with the latest first. -/
def reached (build : Build) (commands : List (Command μ)) : Kernel c μ :=
  commands.foldr (fun command k => (step build k command).2) new

/-- The calls that commands come to, given with the latest first. -/
def callsOf (build : Build) : List (Command μ) → List (Call c μ)
  | [] => []
  | command :: earlier => ⟨reached build earlier, command⟩ :: callsOf build earlier

/-- Whether no command halts the kernel, given with the latest first, and none is a workload. -/
def goes (c : Capacity) (build : Build) : List (Command μ) → Bool
  | [] => true
  | command :: earlier =>
    goes c build earlier && !command.isWorkload &&
      !(step build (reached build earlier : Kernel c μ) command).1.halts

/-- Commands that do not halt the kernel make a run. -/
theorem run_of_goes {commands : List (Command μ)} (hGoes : goes c build commands) :
    Run build (callsOf build commands : List (Call c μ)) (reached build commands) := by
  induction commands with
  | nil => exact .start
  | cons command earlier ih =>
      simp only [goes, Bool.and_eq_true, Bool.not_eq_true'] at hGoes
      exact .step (ih hGoes.1.1) hGoes.1.2 hGoes.2

/-- What the calls of a run made of the table. -/
def tableEvents (build : Build) (calls : List (Call c μ)) : List (Table.Event c) :=
  calls.filterMap (Call.event? build)

theorem step_snd (build : Build) (k : Kernel c μ) (command : Command μ) :
    (step build k command).2 = ((command.perform build).outcome k).state := by
  unfold step outcome
  cases command.perform build ⟨k, .empty⟩ <;> rfl

def firstMachine? (calls : List (Call c μ)) : Option μ :=
  calls.reverse.findSome? fun call => call.command.machine?

/-- A kernel keeps the machine that was given first. -/
theorem Run.machine_first {calls : List (Call c μ)} (run : Run build calls k) :
    k.machine = firstMachine? calls := by
  induction run with
  | start => rfl
  | @step calls k command hRun hSingle hGoes ih =>
      rw [step_snd, machine_perform, ih, firstMachine?, firstMachine?, List.reverse_cons,
        List.findSome?_append, List.findSome?_singleton]

theorem halts_of_panic {cause : Panic}
    (hPanic : ((command.perform build).outcome k).result = .error (.panicked cause)) :
    (step build k command).1.halts := by
  unfold step
  unfold outcome at hPanic
  cases hRun : command.perform build ⟨k, .empty⟩ with
  | ok answer s =>
      rw [hRun] at hPanic
      cases hPanic
  | error stop s =>
      rw [hRun] at hPanic
      cases hPanic
      rfl

/-- The table of a kernel goes through a run of its own. -/
theorem Run.table {calls : List (Call c μ)} (run : Run build calls k) :
    Table.Run build (tableEvents build calls) k.table := by
  induction run with
  | start => exact .start
  | @step calls k command hRun hSingle hGoes ih =>
      rw [step_snd, tableEvents, List.filterMap_cons]
      rcases serves_or_spares build ih.sound hSingle with
        ⟨request, hRequest, hServes⟩ | ⟨hRequest, hSpares⟩
      · have hExplained : Table.Explained build k.table request := Table.explained ih.sound request
        obtain ⟨writes, r, t', hEnds, -, -⟩ := hExplained
        obtain ⟨r', k', hKernel, hTable, hPanic⟩ := hServes writes r t' hEnds
        have hNoPanic (cause : Panic) : r ≠ .error (.panicked cause) := by
          intro hStopped
          obtain ⟨cause', hHalted⟩ := hPanic cause hStopped
          have hResult := congrArg Outcome.result hKernel.outcome_eq
          rw [halts_of_panic (hResult.trans hHalted)] at hGoes
          cases hGoes
        obtain ⟨ev, hEvent, hAfter⟩ := Table.Event.exists_of? hEnds hNoPanic
        have hCall : Call.event? build ⟨k, command⟩ = some ev := by
          rw [Call.event?, hRequest]
          exact hEvent
        rw [hCall, hKernel.outcome_eq, hTable, ← hAfter]
        exact .step ih hEvent
      · have hNone : Call.event? build ⟨k, command⟩ = none := by
          rw [Call.event?, hRequest, Option.bind_none]
        rw [hNone, hSpares]
        exact ih

end Supervisor.Kernel
