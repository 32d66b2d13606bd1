import Supervisor.Proofs.Table.HandleSafety
import Supervisor.Proofs.Table.Runner

/-! What the record of an environment tells of its past. Its count of runs is the number of
dispatches that have entered it. -/

namespace Supervisor.Table

open Effect

variable {c : Capacity} {build : Build} {t t' : Table c} {events : List (Event c)} {ev : Event c}
  {slot : Nat} {e : Environment} {free : List Nat} {log : List Deed} {tenant : Tenant}
  {target : Handle}

/-- The event allocated or created an environment. -/
structure Event.Allocates (ev : Event c) (tenant : Tenant) : Prop where
  asked : ev.command = .allocate tenant.parent tenant.kind ∨
    tenant.parent = .reserved ∧ ∃ file limit resolver,
      ev.command = .create file tenant.kind limit resolver
  issued : ev.response = .ok (.issued tenant.handle)

/-- The event is a dispatch that entered the environment in a slot. -/
def Event.enters (slot : Nat) (ev : Event c) : Bool :=
  match ev.command, ev.response with
  | .dispatch target, .ok (.dispatched (.enter _)) => ev.before.named? target = some slot
  | _, _ => false

/-- The count of runs in the record of a slot after a deed. -/
def Deed.runs (slot : Nat) : Deed → UInt32 → UInt32
  | .reset, _ => 0
  | .take other e, n => if other = slot then e.runs else n
  | .enter other, n => if other = slot then n + 1 else n
  | .give _, n | .move _ _, n | .edit _ _, n => n

theorem Change.runs_eq {e' : Environment} (change : Change t log t') (hGet : t.get? slot = some e)
    (hGet' : t'.get? slot = some e') : e'.runs = log.foldr (Deed.runs slot) e.runs := by
  induction change generalizing e e' with
  | keep t =>
      cases hGet.symm.trans hGet'
      rfl
  | reset t =>
      rw [get?_new (lt_of_get? hGet)] at hGet'
      cases hGet'
      rfl
  | take _ hOld _ _ _ | give hOld _ | move hOld _ _ _ | edit hOld _ | enter hOld _ =>
      rcases get?_put_cases hOld hGet' with ⟨rfl, rfl⟩ | ⟨hNe, hSame⟩
      · cases hOld.symm.trans hGet
        simp [Deed.runs]
      · cases hSame.symm.trans hGet
        simp [Deed.runs, hNe]
  | @trans t middle t' first second _ _ ihFirst ihSecond =>
      obtain ⟨between, hBetween⟩ := middle.exists_get? (lt_of_get? hGet)
      rw [List.foldr_append, ← ihFirst hGet hBetween]
      exact ihSecond hBetween hGet'

/-- An event that takes a slot is an allocation, and the new record has not run. -/
theorem Event.allocates_of_take (build : Build) (hTake : .take slot tenant ∈ ev.actions) :
    ev.Allocates tenant ∧ ev.actions = [.take slot tenant] ∧
      ∀ n, (ev.deeds build).foldr (Deed.runs slot) n = 0 := by
  obtain ⟨t, command, response, t'⟩ := ev
  unfold Event.actions at hTake
  split at hTake
  · simp at hTake
  · next parent kind handle hCommand hResponse =>
      cases hCommand
      cases hResponse
      cases List.mem_singleton.mp hTake
      exact ⟨⟨.inl rfl, rfl⟩, rfl, fun n => if_pos rfl⟩
  · next file kind limit resolver handle hCommand hResponse =>
      cases hCommand
      cases hResponse
      cases List.mem_singleton.mp hTake
      exact ⟨⟨.inr ⟨rfl, file, limit, resolver, rfl⟩, rfl⟩, rfl, fun n => if_pos rfl⟩
  · simp at hTake
  · simp at hTake
  · simp at hTake
  · cases hTake

/-- Any other event but a reset counts one run if it enters the slot, and none if it does not. -/
theorem Event.foldr_runs (hReset : .reset ∉ ev.actions)
    (hTake : ∀ tenant, .take slot tenant ∉ ev.actions) (n : UInt32) :
    (ev.deeds build).foldr (Deed.runs slot) n = if ev.enters slot then n + 1 else n := by
  obtain ⟨t, command, response, t'⟩ := ev
  cases response with
  | error error => rw [deeds_refused]; cases command <;> rfl
  | ok answer =>
      cases command with
      | reset => simp [actions] at hReset
      | allocate parent kind =>
          cases answer with
          | issued handle =>
              have hOther : t.freeHead.getD 0 ≠ slot := fun hSame =>
                hTake _ (List.mem_singleton.mpr (by rw [hSame]))
              exact if_neg hOther
          | _ => rfl
      | create file kind limit resolver =>
          cases answer with
          | issued handle =>
              have hOther : t.freeHead.getD 0 ≠ slot := fun hSame =>
                hTake _ (List.mem_singleton.mpr (by rw [hSame]))
              exact if_neg hOther
          | _ => rfl
      | release target => exact foldr_idle _ (fun _ _ => rfl) _ _
      | destroy target =>
          cases answer with
          | destroyed outcome =>
              cases outcome with
              | dying => exact foldr_idle _ (fun _ _ => rfl) _ _
              | releasedCurrent => exact foldr_idle _ (fun _ _ => rfl) _ _
          | _ => rfl
      | dispatch target =>
          simp only [deeds, dispatchDeeds, List.foldr_append]
          rw [foldr_idle (.move · .runnable) (fun _ _ => rfl), foldr_idle .give (fun _ _ => rfl)]
          cases answer with
          | dispatched next =>
              cases next with
              | enter frame =>
                  cases hNamed : t.named? target <;> simp [enteredBy, enters, hNamed, Deed.runs]
              | yield => rfl
          | _ => rfl
      | lookup target checked => rfl
      | setStatus target checked status => exact foldr_idle _ (fun _ _ => rfl) _ _
      | setCurrentStatus status => exact foldr_idle _ (fun _ _ => rfl) _ _
      | editFrame target checked edit => exact foldr_idle _ (fun _ _ => rfl) _ _
      | editCurrentFrame edit => exact foldr_idle _ (fun _ _ => rfl) _ _

/-- At the end of any run an environment in use was allocated with its handle, parent and kind, its
slot was not given back since, and it was entered as often since as its record says. -/
theorem Run.recorded (run : Run build events t) (hGet : t.get? slot = some e)
    (hLive : e.status ≠ .free) :
    ∃ later ev earlier, events = later ++ ev :: earlier ∧ ev.Allocates e.tenant ∧
      .reset ∉ history later ∧ .give slot ∉ history later ∧
      e.runs = .ofNat (later.countP (Event.enters slot)) := by
  induction run generalizing e with
  | start =>
      rw [get?_new (lt_of_get? hGet)] at hGet
      cases hGet
      exact absurd rfl hLive
  | @step events t command ev hRun hStep ih =>
      obtain ⟨old, hOld⟩ := t.exists_get? (lt_of_get? hGet)
      have hRuns := ((explained hRun.sound command).event hStep).1.runs_eq hOld hGet
      have hTenant := (hRun.step hStep).tracked.1.tenant?_eq_some hGet hLive
      change tenant? slot (ev.actions ++ history events) = _ at hTenant
      by_cases hTaken : ∃ tenant, .take slot tenant ∈ ev.actions
      · obtain ⟨tenant, hTake⟩ := hTaken
        obtain ⟨hAllocates, hActions, hFresh⟩ := Event.allocates_of_take build hTake
        rw [hActions, List.singleton_append, tenant?, if_pos rfl] at hTenant
        cases hTenant
        exact ⟨[], ev, events, rfl, hAllocates, List.not_mem_nil, List.not_mem_nil,
          hRuns.trans (hFresh _)⟩
      · have hNot (tenant : Tenant) : .take slot tenant ∉ ev.actions :=
          fun hMem => hTaken ⟨tenant, hMem⟩
        obtain ⟨hBefore, hReset, hKept⟩ := tenant?_of_append hNot hTenant
        obtain ⟨found, hFound, hSame, hFoundLive⟩ :=
          hRun.tracked.1.get?_of_tenant? (lt_of_get? hGet) hBefore
        cases hOld.symm.trans hFound
        obtain ⟨later, first, earlier, rfl, hAllocates, hNoReset, hNotGiven, hCount⟩ :=
          ih hOld hFoundLive
        rw [Event.foldr_runs hReset hNot, hCount] at hRuns
        refine ⟨ev :: later, first, earlier, rfl, hSame ▸ hAllocates, ?_, ?_, ?_⟩
        · exact fun hMem => (List.mem_append.mp hMem).elim hReset hNoReset
        · exact fun hMem => (List.mem_append.mp hMem).elim hKept hNotGiven
        · rw [hRuns, List.countP_cons, UInt32.ofNat_add]
          split <;> simp

/-- The handle of the environment that a command is for, and whether its caller's permission is
checked. -/
def Command.target? : Command → Option (Handle × Bool)
  | .release target | .destroy target | .dispatch target => some (target, false)
  | .lookup target checked | .setStatus target checked _ | .editFrame target checked _ =>
      some (target, checked)
  | .reset | .allocate _ _ | .create _ _ _ _ | .setCurrentStatus _ | .editCurrentFrame _ => none

/-- The command resolves its target to this slot. -/
def Command.Resolves (t : Table c) (slot : Nat) (command : Command) : Prop :=
  ∃ target checked, command.target? = some (target, checked) ∧
    ((resolve target checked).outcome t).result = .ok slot

/-- However it ends, the operation leaves the record of a slot as it is. -/
def Avoids {α : Type} (op : Op c α) (t : Table c) (slot : Nat) : Prop :=
  ∃ writes r t', op.Ends t writes r t' ∧ t'.get? slot = t.get? slot

section Avoids

variable {α β : Type} {op : Op c α}

theorem Avoids.map (h : Avoids op t slot) (g : α → β) :
    Avoids (op >>= fun a => pure (g a)) t slot := by
  obtain ⟨writes, r, t', hEnds, hSame⟩ := h
  exact ⟨writes, r.map g, t', hEnds.map, hSame⟩

/-- What is done to another slot that a handle reaches leaves this one alone. -/
theorem avoids_resolve (sound : t.Sound free) {checked : Bool}
    (hOther : t.reachable? target checked ≠ some slot) {next : Nat → Op c α}
    (hNext : ∀ other e, other ≠ slot → t.get? other = some e → e.status ≠ .free →
      Avoids (next other) t slot) : Avoids (resolve target checked >>= next) t slot := by
  cases hReach : t.reachable? target checked with
  | none => exact ⟨_, _, t, resolve_stops sound hReach next, rfl⟩
  | some other =>
      have hNe : other ≠ slot := fun hSame => hOther (hSame ▸ hReach)
      obtain ⟨e, hGet, hLive⟩ := sound.named_live (named?_of_reachable? hReach)
      obtain ⟨writes, r, t', hEnds, hSame⟩ := hNext other e hNe hGet hLive
      exact ⟨writes, r, t', resolve_finds sound hReach hEnds, hSame⟩

/-- An allocation takes a free slot, which is none in use. -/
theorem avoids_allocate (sound : t.Sound free) (hGet : t.get? slot = some e)
    (hLive : e.status ≠ .free) (parent : Handle) (kind : Kind) :
    Avoids (allocate build parent kind) t slot := by
  rcases allocate_cases sound build parent kind with
    ⟨error, hEnds⟩ | ⟨other, old, rest, rfl, hOld, hRoom⟩
  · exact ⟨_, _, t, hEnds, rfl⟩
  · have hNe : other ≠ slot := by
      rintro rfl
      exact sound.not_mem hGet hLive (List.mem_cons_self ..)
    exact ⟨_, _, _, allocate_ends sound hOld hRoom, get?_put_of_ne hNe⟩

theorem avoids_create (sound : t.Sound free) (hGet : t.get? slot = some e)
    (hLive : e.status ≠ .free) (file : Buffer) (kind : Kind) (limit : UInt64)
    (resolver : Loading.Resolver) :
    Avoids (create build file kind limit resolver) t slot := by
  rcases create_cases sound build file kind limit resolver with
    ⟨writes, error, hEnds⟩ | ⟨writes, span, other, old, rest, rfl, hOld, hRoom, hLoad⟩
  · exact ⟨_, _, t, hEnds, rfl⟩
  · have hNe : other ≠ slot := by
      rintro rfl
      exact sound.not_mem hGet hLive (List.mem_cons_self ..)
    exact ⟨_, _, _, create_ends sound hOld hRoom hLoad, get?_put_of_ne hNe⟩

theorem avoids_release (sound : t.Sound free) (hOther : t.named? target ≠ some slot) :
    Avoids (release target) t slot := by
  rcases release_cases sound target with ⟨-, hEnds⟩ | ⟨other, e, hNamed, -, -, hEnds⟩
  · exact ⟨_, _, t, hEnds, rfl⟩
  · exact ⟨_, _, _, hEnds, get?_put_of_ne fun hSame => hOther (hSame ▸ hNamed)⟩

theorem avoids_destroy (sound : t.Sound free) (hOther : t.named? target ≠ some slot) :
    Avoids (destroy target) t slot := by
  rcases destroy_cases sound target with
    ⟨-, hEnds⟩ | ⟨other, e, hNamed, -, -, ⟨-, hEnds⟩ | ⟨-, hEnds⟩⟩
  · exact ⟨_, _, t, hEnds, rfl⟩
  · exact ⟨_, _, _, hEnds, get?_put_of_ne fun hSame => hOther (hSame ▸ hNamed)⟩
  · exact ⟨_, _, _, hEnds, get?_put_of_ne fun hSame => hOther (hSame ▸ hNamed)⟩

/-- Taking the processor away touches the current record only, and what comes after that only the
target's, also if it is a panic. -/
theorem avoids_dispatch (sound : t.Sound free) (hOther : t.named? target ≠ some slot)
    (hCurrent : t.current ≠ some slot) : Avoids (dispatch target) t slot := by
  have hPreempted := get?_preempted_of_ne hCurrent
  obtain ⟨r, t', hEnds, hHow⟩ := dispatch_ends sound target
  refine ⟨_, r, t', hEnds, ?_⟩
  cases hHow with
  | refused => rfl
  | reapedCurrent | panicked => exact hPreempted
  | @reapedTarget other e hNamed | @entered other e hNamed =>
      have hNe : other ≠ slot := fun hSame => hOther (hSame ▸ hNamed)
      exact (get?_put_of_ne hNe).trans hPreempted

/-- A status that is refused changes nothing at all. -/
theorem avoids_setStatusOf {other : Nat} (hNe : other ≠ slot) (hGet : t.get? other = some e)
    (status : Status) : Avoids (setStatusOf other status) t slot := by
  rcases setStatusOf_ends hGet status with ⟨cause, hEnds⟩ | ⟨-, hEnds⟩
  · exact ⟨_, _, t, hEnds, rfl⟩
  · exact ⟨_, _, _, hEnds, get?_put_of_ne hNe⟩

/-- What is done to the current environment, if there is one, leaves other records alone. -/
theorem avoids_current (sound : t.Sound free) (hCurrent : t.current ≠ some slot)
    {next : Nat → Op c Unit}
    (hNext : ∀ other e, other ≠ slot → t.get? other = some e → Avoids (next other) t slot) :
    Avoids (do
      let t ← Effect.state
      match t.current with
      | none => pure false
      | some other => do
        next other
        pure true) t slot := by
  cases hSome : t.current with
  | none =>
      refine ⟨[], .ok false, t, (ends_state t).andThen ?_, rfl⟩
      rw [hSome]
      exact Ends.pure false t
  | some other =>
      have hNe : other ≠ slot := fun hSame => hCurrent (hSame ▸ hSome)
      obtain ⟨e, hGet, -⟩ := sound.current_live hSome
      obtain ⟨writes, r, t', hEnds, hSame⟩ := (hNext other e hNe hGet).map fun _ => true
      refine ⟨writes, r, t', (ends_state t).andThen ?_, hSame⟩
      rw [hSome]
      exact hEnds

/-- No command but a reset touches a record in use that is neither its target's nor the current
one. -/
theorem avoids_perform (build : Build) (sound : t.Sound free) {command : Command}
    (hReset : command ≠ .reset) (hGet : t.get? slot = some e) (hLive : e.status ≠ .free)
    (hCurrent : t.current ≠ some slot) (hTarget : ¬ command.Resolves t slot) :
    Avoids (command.perform build) t slot := by
  have hOther {target : Handle} {checked : Bool}
      (hCommand : command.target? = some (target, checked)) :
      t.reachable? target checked ≠ some slot := by
    intro hReach
    refine hTarget ⟨target, checked, hCommand, ?_⟩
    rw [(resolve_ends sound target checked).outcome_eq, hReach]
    rfl
  cases command with
  | reset => exact absurd rfl hReset
  | allocate parent kind => exact (avoids_allocate sound hGet hLive parent kind).map _
  | create file kind limit resolver =>
      exact (avoids_create sound hGet hLive file kind limit resolver).map _
  | release target => exact (avoids_release sound (by simpa using hOther rfl)).map _
  | destroy target => exact (avoids_destroy sound (by simpa using hOther rfl)).map _
  | dispatch target => exact (avoids_dispatch sound (by simpa using hOther rfl) hCurrent).map _
  | lookup target checked =>
      have hLookup : Avoids (lookup target checked) t slot :=
        avoids_resolve sound (hOther rfl) fun _ _ _ hFound _ =>
          ⟨_, _, t, slotAt_ends hFound, rfl⟩
      exact hLookup.map _
  | setStatus target checked status =>
      have hSet : Avoids (setStatus target checked status) t slot :=
        avoids_resolve sound (hOther rfl) fun _ _ hNe hFound _ =>
          avoids_setStatusOf hNe hFound status
      exact hSet.map _
  | setCurrentStatus status =>
      have hSet : Avoids (setCurrentStatus status) t slot :=
        avoids_current sound hCurrent fun _ _ hNe hFound => avoids_setStatusOf hNe hFound status
      exact hSet.map _
  | editFrame target checked edit =>
      have hEdit : Avoids (editFrame target checked edit) t slot :=
        avoids_resolve sound (hOther rfl) fun _ _ hNe hFound _ =>
          ⟨_, _, _, changeSlot_ends hFound _, get?_put_of_ne hNe⟩
      exact hEdit.map _
  | editCurrentFrame edit =>
      have hEdit : Avoids (editCurrentFrame edit) t slot :=
        avoids_current sound hCurrent fun _ _ hNe hFound =>
          ⟨_, _, _, changeSlot_ends hFound _, get?_put_of_ne hNe⟩
      exact hEdit.map _

end Avoids

/-- An environment in use was allocated with the handle, parent and kind of its record, and its
count of runs is the number of dispatches that have entered it since, modulo 2^32. Any command but a
reset leaves its record alone unless it is current or the target. -/
theorem records_kept (run : Run build events t) (hGet : t.get? slot = some e)
    (hLive : e.status ≠ .free) :
    (∃ later ev earlier, events = later ++ ev :: earlier ∧ ev.Allocates e.tenant ∧
      .reset ∉ history later ∧ .give slot ∉ history later ∧
      e.runs.toNat = later.countP (Event.enters slot) % UInt32.size) ∧
    ∀ command : Command, command ≠ .reset → t.current ≠ some slot → ¬ command.Resolves t slot →
      ((command.perform build).outcome t).state.get? slot = some e := by
  constructor
  · obtain ⟨later, ev, earlier, hSplit, hAllocates, hReset, hKept, hRuns⟩ :=
      run.recorded hGet hLive
    refine ⟨later, ev, earlier, hSplit, hAllocates, hReset, hKept, ?_⟩
    rw [hRuns, UInt32.toNat_ofNat']
  · intro command hReset hCurrent hTarget
    obtain ⟨writes, r, t', hEnds, hSame⟩ :=
      avoids_perform build run.sound hReset hGet hLive hCurrent hTarget
    rw [hEnds.outcome_eq]
    exact hSame.trans hGet

namespace Sample

def vacating : Event pair :=
  (Event.of? .bare occupied.after (.release ⟨0x1000⟩)).get (by decide +kernel)

def reusing : Event pair :=
  (Event.of? .bare vacating.after (.allocate .reserved .user)).get (by decide +kernel)

def reoccupying : Event pair :=
  (Event.of? .bare reusing.after (.dispatch ⟨0x2000⟩)).get (by decide +kernel)

theorem run_reoccupying :
    Run .bare [reoccupying, reusing, vacating, occupied, second, first] reoccupying.after :=
  .step (.step (.step (.step (.step (.step .start (Option.some_get _).symm)
    (Option.some_get _).symm) (Option.some_get _).symm) (Option.some_get _).symm)
    (Option.some_get _).symm) (Option.some_get _).symm

end Sample

/-- In the sample only one of two runs counts. Destroying the current environment leaves the record
of the other one alone. -/
theorem records_kept_reused :
    let events := [Sample.reoccupying, Sample.reusing, Sample.vacating, Sample.occupied,
      Sample.second, Sample.first]
    let t := Sample.reoccupying.after
    Run .bare events t ∧ events.countP (Event.enters 0) = 2 ∧
      (∃ e, t.get? 0 = some e ∧ e.status ≠ .free ∧ e.runs = 1 ∧
        ∃ later ev earlier, events = later ++ ev :: earlier ∧ ev.Allocates e.tenant ∧
          e.runs.toNat = later.countP (Event.enters 0) % UInt32.size) ∧
      ∃ e, t.get? 1 = some e ∧ e.status ≠ .free ∧
        ((Command.perform .bare (.destroy ⟨0x2000⟩)).outcome t).state.get? 1 = some e := by
  intro events t
  have sound := Sample.run_reoccupying.sound
  have hFirst : (t.get? 0).map (fun e => (e.status, e.runs)) = some (.running, 1) := by
    decide +kernel
  have hSecond : (t.get? 1).map (·.status) = some .runnable := by decide +kernel
  obtain ⟨e, hGet, hRecord⟩ := Option.map_eq_some_iff.mp hFirst
  obtain ⟨e', hGet', hStatus'⟩ := Option.map_eq_some_iff.mp hSecond
  obtain ⟨hStatus, hRuns⟩ := Prod.mk.inj hRecord
  have hLive : e.status ≠ .free := by simp [hStatus]
  have hLive' : e'.status ≠ .free := by simp [hStatus']
  obtain ⟨⟨later, ev, earlier, hSplit, hAllocates, -, -, hCount⟩, -⟩ :=
    records_kept Sample.run_reoccupying hGet hLive
  obtain ⟨-, hKept⟩ := records_kept Sample.run_reoccupying hGet' hLive'
  refine ⟨Sample.run_reoccupying, by decide +kernel, ⟨e, hGet, hLive, hRuns, later, ev, earlier,
    hSplit, hAllocates, hCount⟩, e', hGet', hLive', ?_⟩
  refine hKept _ Command.noConfusion (by decide +kernel) ?_
  rintro ⟨target, checked, hTarget, hResolve⟩
  cases hTarget
  have hNamed : t.named? ⟨0x2000⟩ = some 0 := by decide +kernel
  cases hNamed.symm.trans ((resolve_eq_ok_iff sound).mp hResolve)

end Supervisor.Table
