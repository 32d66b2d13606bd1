import Supervisor.Proofs.Table.Run

/-! At most one environment runs. It is the current one as long as nobody sets another running. -/

namespace Supervisor.Table

open Effect

variable {c : Capacity} {build : Build} {t t' : Table c} {events : List (Event c)} {slot : Nat}
  {e : Environment} {free : List Nat} {log : List Deed} {target : Handle}

/-- The status that a deed brings an environment in, if any. -/
def Deed.brings? (slot : Nat) : Deed → Option Status
  | .reset => some .free
  | .take other e => if other = slot then some e.status else none
  | .give other => if other = slot then some .free else none
  | .move other status => if other = slot then some status else none
  | .edit _ _ => none
  | .enter other => if other = slot then some .running else none

/-- The current slot after a deed. -/
def Deed.current : Deed → Option Nat → Option Nat
  | .reset, _ => none
  | .give slot, current => if current = some slot then none else current
  | .enter slot, _ => some slot
  | .take _ _, current | .move _ _, current | .edit _ _, current => current

/-- The latest deed that brings an environment in a status leaves it in that status. -/
theorem Change.status_eq {e' : Environment} (change : Change t log t') (hGet : t.get? slot = some e)
    (hGet' : t'.get? slot = some e') :
    e'.status = (log.findSome? (Deed.brings? slot)).getD e.status := by
  induction change generalizing e e' with
  | keep t =>
      cases hGet.symm.trans hGet'
      rfl
  | reset t =>
      rw [get?_new (lt_of_get? hGet)] at hGet'
      cases hGet'
      rfl
  | take _ hOld _ _ _ | give hOld _ | move hOld _ _ _ | edit hOld _ | enter hOld _ =>
      rcases get?_put_cases hOld hGet' with ⟨rfl, rfl⟩ | ⟨hNe, hSame⟩
      · cases hOld.symm.trans hGet
        simp [Deed.brings?]
      · cases hSame.symm.trans hGet
        simp [Deed.brings?, hNe]
  | @trans t middle t' first second _ _ ihFirst ihSecond =>
      obtain ⟨between, hBetween⟩ := middle.exists_get? (lt_of_get? hGet)
      rw [List.findSome?_append, Option.getD_or, ← ihFirst hGet hBetween]
      exact ihSecond hBetween hGet'

theorem Change.current_eq (change : Change t log t') :
    t'.current = log.foldr Deed.current t.current := by
  induction change with
  | keep t => rfl
  | reset t => rfl
  | take _ _ _ _ _ => rfl
  | give _ _ => rfl
  | move _ _ _ _ => rfl
  | edit _ _ => rfl
  | enter _ _ => rfl
  | trans _ _ ihFirst ihSecond => rw [List.foldr_append, ← ihFirst, ihSecond]

/-- A slot stays current if nothing is done to it that brings another status and nothing else is
entered. -/
theorem current_of_quiet (hQuiet : ∀ deed ∈ log, deed.brings? slot = none)
    (hEnter : ∀ other, .enter other ∉ log) : log.foldr Deed.current (some slot) = some slot := by
  induction log with
  | nil => rfl
  | cons deed log ih =>
      have hHere := hQuiet deed (List.mem_cons_self ..)
      rw [List.foldr_cons, ih (fun other hMem => hQuiet other (List.mem_cons_of_mem _ hMem))
        fun other hMem => hEnter other (List.mem_cons_of_mem _ hMem)]
      cases deed with
      | enter other => exact absurd (List.mem_cons_self ..) (hEnter other)
      | give other =>
          have hOther : other ≠ slot := by simpa [Deed.brings?] using hHere
          simp [Deed.current, Ne.symm hOther]
      | reset => cases hHere
      | take _ _ | move _ _ | edit _ _ => rfl

/-- The slot that a deed enters. -/
def Deed.enters? : Deed → Option Nat
  | .enter slot => some slot
  | .reset | .take _ _ | .give _ | .move _ _ | .edit _ _ => none

/-- A slot that is not given back is current exactly if it was entered last, or was current before
and no slot was entered. -/
theorem current_eq_some_iff (hReset : .reset ∉ log) (hKept : .give slot ∉ log)
    (current : Option Nat) : log.foldr Deed.current current = some slot ↔
      (log.findSome? Deed.enters?).or current = some slot := by
  induction log with
  | nil => exact Iff.rfl
  | cons deed log ih =>
      have hRest := ih (mt (List.mem_cons_of_mem _) hReset) (mt (List.mem_cons_of_mem _) hKept)
      rw [List.foldr_cons, List.findSome?_cons]
      cases deed with
      | reset => exact absurd (List.mem_cons_self ..) hReset
      | enter other => exact Iff.rfl
      | take _ _ | move _ _ | edit _ _ => exact hRest
      | give other =>
          have hOther : other ≠ slot := fun hSame => hKept (hSame ▸ List.mem_cons_self ..)
          simp only [Deed.current, Deed.enters?, ← hRest]
          split
          · next hGiven => simp [hGiven, hOther]
          · exact Iff.rfl

/-- Whatever is running is the current environment. -/
def Lone (t : Table c) : Prop :=
  ∀ slot e, t.get? slot = some e → e.status = .running → t.current = some slot

theorem lone_new : (new : Table c).Lone := by
  intro slot e hGet hRuns
  rw [get?_new (lt_of_get? hGet)] at hGet
  cases hGet
  cases hRuns

/-- The lone runner stays alone if whatever starts to run ends up as the current environment, and
an environment is entered only after the current one stopped running. -/
theorem Change.lone (change : Change t log t') (lone : t.Lone)
    (hStart : ∀ deed ∈ log, ∀ slot, deed.brings? slot = some .running →
      log.foldr Deed.current t.current = some slot)
    (hYield : ∀ other slot e, .enter other ∈ log → t.current = some slot →
      t.get? slot = some e → e.status = .running → .move slot .runnable ∈ log) : t'.Lone := by
  intro slot e' hGet' hRuns
  obtain ⟨e, hGet⟩ := t.exists_get? (lt_of_get? hGet')
  rw [change.current_eq]
  rw [change.status_eq hGet hGet'] at hRuns
  cases hLast : log.findSome? (Deed.brings? slot) with
  | some status =>
      rw [hLast] at hRuns
      cases hRuns
      obtain ⟨deed, hMem, hBrings⟩ := List.exists_of_findSome?_eq_some hLast
      exact hStart deed hMem slot hBrings
  | none =>
      -- It was running before and nothing was done to it, so the current one did not yield and
      -- nothing else was entered.
      have hOld : e.status = .running := by simpa [hLast] using hRuns
      have hQuiet := List.findSome?_eq_none_iff.mp hLast
      have hCurrent := lone slot e hGet hOld
      rw [hCurrent]
      refine current_of_quiet hQuiet fun other hMem => ?_
      simpa [Deed.brings?] using hQuiet _ (hYield other slot e hMem hCurrent hGet hOld)

/-- Deeds that start nothing keep the lone runner alone. -/
theorem Change.lone_of_quiet (change : Change t log t') (lone : t.Lone)
    (hQuiet : ∀ deed ∈ log, ∀ slot, deed.brings? slot ≠ some .running) : t'.Lone :=
  change.lone lone (fun deed hMem slot hBrings => absurd hBrings (hQuiet deed hMem slot))
    fun other _ _ hMem => absurd (if_pos rfl) (hQuiet _ hMem other)

/-- So does putting environments in a status, if it is the current one that is set running. -/
theorem Change.lone_of_moves {slots : List Nat} {status : Status}
    (change : Change t (slots.map (.move · status)) t') (lone : t.Lone)
    (hOwn : ∀ slot ∈ slots, status = .running → t.current = some slot) : t'.Lone := by
  apply change.lone lone
  · intro deed hMem slot hBrings
    obtain ⟨other, hOther, rfl⟩ := List.mem_map.mp hMem
    rw [foldr_idle _ fun _ _ => rfl]
    simp only [Deed.brings?, Option.ite_none_right_eq_some, Option.some.injEq] at hBrings
    obtain ⟨rfl, hRuns⟩ := hBrings
    exact hOwn other hOther hRuns
  · simp

/-- A dispatch brings what it enters to running, what it releases to free and what it takes the
processor from to runnable. -/
theorem brings_of_dispatch {answer : Answer} {deed : Deed} {status : Status}
    (hMem : deed ∈ t.dispatchDeeds target answer) (hBrings : deed.brings? slot = some status) :
    status = .running ∧ slot ∈ t.enteredBy target answer ∨
      status = .free ∧ slot ∈ t.reapedBy target ∨
        status = .runnable ∧ t.demoted? = some slot := by
  simp only [dispatchDeeds, List.mem_append, List.mem_map, Option.mem_toList] at hMem
  rcases hMem with (⟨other, hEntered, rfl⟩ | ⟨other, hReaped, rfl⟩) | ⟨other, hDemoted, rfl⟩ <;>
    simp only [Deed.brings?, Option.ite_none_right_eq_some, Option.some.injEq] at hBrings <;>
    obtain ⟨rfl, rfl⟩ := hBrings
  · exact .inl ⟨rfl, hEntered⟩
  · exact .inr (.inl ⟨rfl, hReaped⟩)
  · exact .inr (.inr ⟨rfl, hDemoted⟩)

/-- What a dispatch enters is current after its deeds. -/
theorem current_of_entered {answer : Answer} (hEntered : slot ∈ t.enteredBy target answer) :
    (t.dispatchDeeds target answer).foldr Deed.current t.current = some slot := by
  unfold enteredBy at hEntered
  split at hEntered
  · have hNamed : t.named? target = some slot := Option.mem_toList.mp hEntered
    simp only [dispatchDeeds, enteredBy, hNamed, Option.toList_some, List.map_cons, List.map_nil,
      List.cons_append, List.foldr_cons]
    rfl
  · cases hEntered

/-- A dispatch that is answered starts at most its target, which becomes current, and before that
takes the processor from the current environment. -/
theorem Change.lone_of_dispatch {answer : Answer}
    (change : Change t (t.dispatchDeeds target answer) t') (lone : t.Lone) : t'.Lone := by
  apply change.lone lone
  · intro deed hMem slot hBrings
    rcases brings_of_dispatch hMem hBrings with ⟨-, hEntered⟩ | ⟨hFree, -⟩ | ⟨hRunnable, -⟩
    · exact current_of_entered hEntered
    · cases hFree
    · cases hRunnable
  · intro other slot e _ hCurrent hGet hRuns
    have hDemoted : t.demoted? = some slot := by simp [demoted?, hCurrent, hGet, hRuns]
    simp [dispatchDeeds, hDemoted]

namespace Event

/-- The event sets the environment in a slot running by its status alone. -/
def SetsRunning (ev : Event c) (slot : Nat) : Prop :=
  ∃ target checked answer, ev.command = .setStatus target checked .running ∧
    ev.response = .ok answer ∧ ((resolve target false).outcome ev.before).result = .ok slot

/-- A command keeps the lone runner alone, unless it sets an environment running that is not
current. -/
theorem lone {ev : Event c} {command : Command} (sound : t.Sound free)
    (hStep : of? build t command = some ev) (lone : t.Lone)
    (hOwn : ∀ slot, ev.SetsRunning slot → ev.before.current = some slot) : ev.after.Lone := by
  have hChange := ((explained sound command).event hStep).1
  have hBefore := before_of? hStep
  obtain ⟨before, command, response, after⟩ := ev
  cases hBefore
  cases response with
  | error error =>
      rw [deeds_refused] at hChange
      exact hChange.lone_of_quiet lone (by simp)
  | ok answer =>
      cases command with
      | dispatch target => exact hChange.lone_of_dispatch lone
      | setStatus target checked status =>
          refine hChange.lone_of_moves lone fun slot hMem hRuns => ?_
          have hResolved := (resolve_eq_ok_iff sound).mpr (Option.mem_toList.mp hMem)
          exact hOwn slot ⟨target, checked, answer, by rw [hRuns], rfl, hResolved⟩
      | setCurrentStatus status =>
          exact hChange.lone_of_moves lone fun slot hMem _ => Option.mem_toList.mp hMem
      | allocate parent kind | create file kind limit resolver =>
          cases answer <;>
            exact hChange.lone_of_quiet lone (by simp [deeds, Deed.brings?, Environment.fresh])
      | destroy target =>
          cases answer with
          | destroyed outcome =>
              cases outcome <;> exact hChange.lone_of_quiet lone (by simp [deeds, Deed.brings?])
          | _ => exact hChange.lone_of_quiet lone (by simp [deeds])
      | _ => exact hChange.lone_of_quiet lone (by simp [deeds, Deed.brings?])

end Event

/-- Whatever is running at the end of a run is the current environment, unless an environment was
set running that was not. -/
theorem Run.lone (run : Run build events t)
    (hOwn : ∀ ev ∈ events, ∀ slot, ev.SetsRunning slot → ev.before.current = some slot) :
    t.Lone := by
  induction run with
  | start => exact lone_new
  | step hRun hStep ih =>
      refine Event.lone hRun.sound hStep (ih fun ev hMem => ?_) (hOwn _ (List.mem_cons_self ..))
      exact hOwn ev (List.mem_cons_of_mem _ hMem)

/-- After a dispatch the environment that was current is not dying: if it was, it is released. -/
theorem Change.not_dying_of_dispatch {answer : Answer} {e' : Environment}
    (change : Change t (t.dispatchDeeds target answer) t') (hCurrent : t.current = some slot)
    (hGet' : t'.get? slot = some e') : e'.status ≠ .dying := by
  intro hDying
  obtain ⟨e, hGet⟩ := t.exists_get? (lt_of_get? hGet')
  rw [change.status_eq hGet hGet'] at hDying
  cases hLast : (t.dispatchDeeds target answer).findSome? (Deed.brings? slot) with
  | some status =>
      rw [hLast] at hDying
      cases hDying
      obtain ⟨deed, hMem, hBrings⟩ := List.exists_of_findSome?_eq_some hLast
      simpa using brings_of_dispatch hMem hBrings
  | none =>
      have hOld : e.status = .dying := by simpa [hLast] using hDying
      have hReaped : slot ∈ t.reapedBy target :=
        mem_reapedBy.mpr ⟨.inl hCurrent, isDying_iff.mpr ⟨e, hGet, hOld⟩⟩
      have hGiven : .give slot ∈ t.dispatchDeeds target answer := by
        simp [dispatchDeeds, hReaped]
      simpa [Deed.brings?] using List.findSome?_eq_none_iff.mp hLast _ hGiven

/-- If no environment was set running that was not current, whatever runs is the current
environment. When a dispatch enters its target, that is the only one to run, and the environment
that was current before is neither running nor dying. -/
theorem one_runs (run : Run build events t)
    (hOwn : ∀ ev ∈ events, ∀ slot, ev.SetsRunning slot → ev.before.current = some slot) :
    (∀ slot, t.current = some slot → slot < c.size ∧
      ∃ e, t.get? slot = some e ∧ e.status ≠ .free ∧ e.handle.slot c.size = .ok slot) ∧
      (∀ slot e, t.get? slot = some e → e.status = .running → t.current = some slot) ∧
      (∀ slot e other e', t.get? slot = some e → e.status = .running →
        t.get? other = some e' → e'.status = .running → other = slot) ∧
      ∀ target frame, ((dispatch target).outcome t).result = .ok (.enter frame) →
        let after := ((dispatch target).outcome t).state
        ∃ slot e, ((resolve target false).outcome t).result = .ok slot ∧
          after.current = some slot ∧ after.get? slot = some e ∧ e.status = .running ∧
          (∀ other e', after.get? other = some e' → e'.status = .running → other = slot) ∧
          ∀ last, t.current = some last → last ≠ slot →
            ∃ e', after.get? last = some e' ∧ e'.status ≠ .running ∧ e'.status ≠ .dying := by
  obtain ⟨tracked, proper⟩ := run.tracked
  have sound := tracked.sound
  have hLone := run.lone hOwn
  refine ⟨?_, hLone, ?_, ?_⟩
  · intro slot hCurrent
    obtain ⟨e, hGet, hLive⟩ := sound.current_live hCurrent
    exact ⟨lt_of_get? hGet, e, hGet, hLive, tracked.slot_handle proper hGet hLive⟩
  · intro slot e other e' hGet hRuns hGet' hRuns'
    exact Option.some.inj ((hLone other e' hGet' hRuns').symm.trans (hLone slot e hGet hRuns))
  · intro target frame hResult after
    obtain ⟨slot, e, hNamed, -, -, -, -, hCurrent, hGet⟩ := dispatch_entered sound hResult
    have hChange := dispatch_answered sound hResult
    have hAlone (other : Nat) (e' : Environment) (hGet' : after.get? other = some e')
        (hRuns : e'.status = .running) : other = slot := by
      have hOther := hChange.lone_of_dispatch hLone other e' hGet' hRuns
      exact Option.some.inj (hOther.symm.trans hCurrent)
    refine ⟨slot, _, (resolve_eq_ok_iff sound).mpr hNamed, hCurrent, hGet, rfl, hAlone, ?_⟩
    intro last hLast hNe
    obtain ⟨old, hOld, -⟩ := sound.current_live hLast
    obtain ⟨e', hGet'⟩ := after.exists_get? (lt_of_get? hOld)
    exact ⟨e', hGet', fun hRuns => hNe (hAlone last e' hGet' hRuns),
      hChange.not_dying_of_dispatch hLast hGet'⟩

namespace Sample

def occupied : Event pair :=
  (Event.of? .bare second.after (.dispatch ⟨0x1000⟩)).get (by decide +kernel)

def resting : Event pair :=
  (Event.of? .bare occupied.after (.setStatus ⟨0x1000⟩ false .runnable)).get (by decide +kernel)

def resuming : Event pair :=
  (Event.of? .bare resting.after (.setStatus ⟨0x1000⟩ false .running)).get (by decide +kernel)

theorem run_resting : Run .bare [resting, occupied, second, first] resting.after :=
  .step (.step (.step (.step .start (Option.some_get _).symm) (Option.some_get _).symm)
    (Option.some_get _).symm) (Option.some_get _).symm

theorem run_resuming : Run .bare [resuming, resting, occupied, second, first] resuming.after :=
  .step run_resting (Option.some_get _).symm

/-- It is the current environment that is set running. -/
theorem setsRunning_resuming : resuming.SetsRunning 0 := by
  have hBefore : resuming.before = resting.after := Event.before_of? (Option.some_get _).symm
  have hCommand : resuming.command = _ := Event.command_of? (Option.some_get _).symm
  have hNamed : resting.after.named? ⟨0x1000⟩ = some 0 := by decide +kernel
  have hAnswered : resuming.response.toOption.isSome := by decide +kernel
  cases hResponse : resuming.response with
  | error error => simp [hResponse, Except.toOption] at hAnswered
  | ok answer =>
      refine ⟨⟨0x1000⟩, false, answer, hCommand, hResponse, ?_⟩
      rw [hBefore]
      exact (resolve_eq_ok_iff run_resting.sound).mpr hNamed

theorem own_resuming : ∀ ev ∈ [resuming, resting, occupied, second, first], ∀ slot,
    ev.SetsRunning slot → ev.before.current = some slot := by
  have hFirst : first.command = _ := Event.command_of? (Option.some_get _).symm
  have hSecond : second.command = _ := Event.command_of? (Option.some_get _).symm
  have hOccupied : occupied.command = _ := Event.command_of? (Option.some_get _).symm
  have hResting : resting.command = _ := Event.command_of? (Option.some_get _).symm
  have hResuming : resuming.command = _ := Event.command_of? (Option.some_get _).symm
  have hBefore : resuming.before = resting.after := Event.before_of? (Option.some_get _).symm
  have hNamed : resting.after.named? ⟨0x1000⟩ = some 0 := by decide +kernel
  have hCurrent : resting.after.current = some 0 := by decide +kernel
  intro ev hMem slot hSets
  obtain ⟨target, checked, answer, hCommand, -, hResolved⟩ := hSets
  simp only [List.mem_cons, List.not_mem_nil, or_false] at hMem
  rcases hMem with rfl | rfl | rfl | rfl | rfl
  · cases hResuming.symm.trans hCommand
    rw [hBefore, resolve_eq_ok_iff run_resting.sound, hNamed] at hResolved
    rw [hBefore, hCurrent, hResolved]
  · cases hResting.symm.trans hCommand
  · cases hOccupied.symm.trans hCommand
  · cases hSecond.symm.trans hCommand
  · cases hFirst.symm.trans hCommand

end Sample

theorem one_runs_resumed :
    Run .bare [Sample.resuming, Sample.resting, Sample.occupied, Sample.second, Sample.first]
        Sample.resuming.after ∧
      (∀ ev ∈ [Sample.resuming, Sample.resting, Sample.occupied, Sample.second, Sample.first],
        ∀ slot, ev.SetsRunning slot → ev.before.current = some slot) ∧
      Sample.resuming.SetsRunning 0 ∧
      Sample.resuming.after.current = some 0 ∧
      let after := ((dispatch ⟨0x1001⟩).outcome Sample.resuming.after).state
      after.current = some 1 ∧
        ∃ e, after.get? 0 = some e ∧ e.status ≠ .running ∧ e.status ≠ .dying := by
  have sound := Sample.run_resuming.sound
  have hCurrent : Sample.resuming.after.current = some 0 := by decide +kernel
  have hNamed : Sample.resuming.after.named? ⟨0x1001⟩ = some 1 := by decide +kernel
  have hReaped : Sample.resuming.after.reaped? ≠ some 1 := by decide +kernel
  have hStatus : (Sample.resuming.after.preempted.get? 1).map (·.status) = some .runnable := by
    decide +kernel
  obtain ⟨e, hGet, hRunnable⟩ := Option.map_eq_some_iff.mp hStatus
  have hEnds := dispatch_enters sound hNamed hReaped hGet hRunnable
  have hResult : ((dispatch ⟨0x1001⟩).outcome Sample.resuming.after).result = _ :=
    congrArg Outcome.result hEnds.outcome_eq
  obtain ⟨-, -, -, hEntered⟩ := one_runs Sample.run_resuming Sample.own_resuming
  obtain ⟨slot, -, hResolved, hAfter, -, -, -, hLast⟩ := hEntered _ _ hResult
  rw [resolve_eq_ok_iff sound, hNamed] at hResolved
  cases hResolved
  exact ⟨Sample.run_resuming, Sample.own_resuming, Sample.setsRunning_resuming, hCurrent, hAfter,
    hLast 0 hCurrent (by decide)⟩

end Supervisor.Table
