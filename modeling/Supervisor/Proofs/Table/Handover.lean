import Supervisor.Proofs.Table.Dying

/-! What a dispatch is answered and what it leaves behind, in full. No record but the target's and
the current one is touched. -/

namespace Supervisor

/-- The status of an environment that loses the processor. -/
def Status.relieved : Status → Status
  | .dying => .free
  | .running => .runnable
  | status => status

namespace Table

open Effect

variable {c : Capacity} {build : Build} {t t' : Table c} {events : List (Event c)}
  {slot other : Nat} {e : Environment} {free added : List Nat} {target : Handle} {next : Dispatch}

/-- A dispatch of the environment in a slot was answered and led from the first table to the
second. -/
structure Handover (t : Table c) (slot : Nat) (next : Dispatch) (t' : Table c) : Prop where
  /-- What is entered goes on from its frame, is current and runs once more. -/
  enters : ∀ frame, next = .enter frame → t'.current = some slot ∧ ∃ e,
    t.get? slot = some e ∧ e.frame = frame ∧
      t'.get? slot = some { e with status := .running, runs := e.runs + 1 }
  /-- What is not entered is released. The current environment stays current if it is not
  released. -/
  yields : next = .yield → t'.current ≠ some slot ∧
    t'.current = (t.current.filter fun other => !t.isDying other) ∧ ∃ e link,
      t.get? slot = some e ∧ t'.get? slot = some { e with status := .free, link }
  /-- Another environment that was current loses the processor. Its link changes only if it is
  released. -/
  relieves : ∀ other e, t.current = some other → other ≠ slot → t.get? other = some e →
    ∃ link, t'.get? other = some { e with status := e.status.relieved, link } ∧
      (e.status ≠ .dying → link = e.link)
  keeps : ∀ other, other ≠ slot → t.current ≠ some other → t'.get? other = t.get? other
  stackTop : t'.stackTop = t.stackTop
  /-- The free list grows by the slots that were in use before and are free now. -/
  frees : ∃ freed free, t.freeList? = some free ∧ t'.freeList? = some (freed ++ free) ∧
    freed.Nodup ∧ ∀ other, other ∈ freed ↔ ∃ e e', t.get? other = some e ∧ e.status ≠ .free ∧
      t'.get? other = some e' ∧ e'.status = .free

theorem get?_preempted_current (hCurrent : t.current = some other) (hGet : t.get? other = some e) :
    ∃ link, t.preempted.get? other = some { e with status := e.status.relieved, link } ∧
      (e.status ≠ .dying → link = e.link) := by
  rw [preempted_of_current hCurrent hGet]
  cases hStatus : e.status with
  | dying => exact ⟨t.freeHead, get?_put_same hGet, fun hNot => absurd rfl hNot⟩
  | running => exact ⟨e.link, get?_put_same hGet, fun _ => rfl⟩
  | free | runnable | blocked =>
      refine ⟨e.link, hGet.trans ?_, fun _ => rfl⟩
      simp [Status.relieved, ← hStatus]

/-- The current environment stays current unless it is released. -/
theorem current_preempted (sound : t.Sound free) :
    t.preempted.current = t.current.filter fun other => !t.isDying other := by
  cases hCurrent : t.current with
  | none => rw [preempted_of_none hCurrent, hCurrent, Option.filter_none]
  | some current =>
      obtain ⟨e, hGet, -⟩ := sound.current_live hCurrent
      rw [preempted_of_current hCurrent hGet, Option.filter_some, isDying_eq hGet]
      cases e.status with
      | dying => exact if_pos hCurrent
      | free | running | runnable | blocked => exact hCurrent

theorem stackTop_preempted (sound : t.Sound free) : t.preempted.stackTop = t.stackTop := by
  cases hCurrent : t.current with
  | none => rw [preempted_of_none hCurrent]
  | some current =>
      obtain ⟨e, hGet, -⟩ := sound.current_live hCurrent
      rw [preempted_of_current hCurrent hGet]
      cases e.status <;> rfl

/-- What is put on a free list are the slots that went out of use. -/
theorem Sound.mem_added_iff (sound : t.Sound free) (soundAfter : t'.Sound (added ++ free)) :
    other ∈ added ↔ ∃ e e', t.get? other = some e ∧ e.status ≠ .free ∧
      t'.get? other = some e' ∧ e'.status = .free := by
  constructor
  · intro hAdded
    have hMem : other ∈ added ++ free := List.mem_append_left _ hAdded
    obtain ⟨e', hGet'⟩ := soundAfter.linked.exists_get? other hMem
    obtain ⟨e, hGet⟩ := t.exists_get? (soundAfter.lt_of_mem hMem)
    have hLive : e.status ≠ .free := fun hFree =>
      (List.nodup_append.mp soundAfter.nodup).2.2 other hAdded other
        ((sound.mem_iff hGet).mpr hFree) rfl
    exact ⟨e, e', hGet, hLive, hGet', (soundAfter.mem_iff hGet').mp hMem⟩
  · rintro ⟨e, e', hGet, hLive, hGet', hFree⟩
    have hMem := (soundAfter.mem_iff hGet').mpr hFree
    exact (List.mem_append.mp hMem).resolve_right (sound.not_mem hGet hLive)

/-- Once the processor is taken away, what is done to the target alone leaves the other records to
their handover. -/
theorem Handover.of_preempted (sound : t.Sound free)
    (soundAfter : t'.Sound (t.reapedBy target ++ free))
    (hOthers : ∀ other, other ≠ slot → t'.get? other = t.preempted.get? other)
    (hStackTop : t'.stackTop = t.preempted.stackTop)
    (enters : ∀ frame, next = .enter frame → t'.current = some slot ∧ ∃ e,
      t.get? slot = some e ∧ e.frame = frame ∧
        t'.get? slot = some { e with status := .running, runs := e.runs + 1 })
    (yields : next = .yield → t'.current ≠ some slot ∧
      t'.current = (t.current.filter fun other => !t.isDying other) ∧ ∃ e link,
        t.get? slot = some e ∧ t'.get? slot = some { e with status := .free, link }) :
    Handover t slot next t' where
  enters := enters
  yields := yields
  relieves := by
    intro other e hCurrent hNe hGet
    rw [hOthers other hNe]
    exact get?_preempted_current hCurrent hGet
  keeps := by
    intro other hNe hOther
    rw [hOthers other hNe]
    exact get?_preempted_of_ne hOther
  stackTop := hStackTop.trans (stackTop_preempted sound)
  frees := ⟨t.reapedBy target, free, sound.freeList?_eq, soundAfter.freeList?_eq,
    (List.nodup_append.mp soundAfter.nodup).1, fun _ => sound.mem_added_iff soundAfter⟩

/-- The target was current and dying, and nothing more is done. -/
theorem handover_preempted (sound : t.Sound free)
    (soundAfter : t.preempted.Sound (t.reapedBy target ++ free)) (hGet : t.get? slot = some e)
    (hReaped : t.reaped? = some slot) : Handover t slot .yield t.preempted := by
  obtain ⟨hCurrent, hDying⟩ := reaped?_eq_some_iff.mp hReaped
  obtain ⟨link, hAfter, -⟩ := get?_preempted_current hCurrent hGet
  rw [isDying_eq hGet, decide_eq_true_iff] at hDying
  rw [hDying] at hAfter
  have hNone : t.preempted.current ≠ some slot := by
    simp [current_preempted sound, hCurrent, isDying_eq hGet, hDying]
  exact .of_preempted sound soundAfter (fun _ _ => rfl) rfl (fun _ hEnter => nomatch hEnter)
    fun _ => ⟨hNone, current_preempted sound, e, link, hGet, hAfter⟩

/-- The target was dying and is released after the processor was taken from the current
environment. -/
theorem handover_freed (sound : t.Sound free)
    (soundAfter : (t.preempted.freed slot e).Sound (t.reapedBy target ++ free))
    (hGet : t.get? slot = some e) (hDying : e.status = .dying)
    (hAfter : t.preempted.get? slot = some e) :
    Handover t slot .yield (t.preempted.freed slot e) := by
  have hNone : t.preempted.current ≠ some slot := by
    simp [current_preempted sound, Option.filter_eq_some_iff, isDying_eq hGet, hDying]
  have hStays : (t.preempted.freed slot e).current = t.preempted.current := if_neg hNone
  refine .of_preempted sound soundAfter (fun other hNe => get?_put_of_ne hNe.symm) rfl
    (fun _ hEnter => nomatch hEnter) fun _ => ⟨?_, ?_, e, _, hGet, get?_put_same hAfter⟩
  · rwa [hStays]
  · rw [hStays, current_preempted sound]

/-- The target can run once the processor is free, and is entered. -/
theorem handover_entered (sound : t.Sound free)
    (soundAfter : (t.preempted.entered slot { e with status := .runnable }).Sound
      (t.reapedBy target ++ free))
    (hGet : t.get? slot = some e)
    (hAfter : t.preempted.get? slot = some { e with status := .runnable }) :
    Handover t slot (.enter e.frame)
      (t.preempted.entered slot { e with status := .runnable }) := by
  refine .of_preempted sound soundAfter (fun other hNe => get?_put_of_ne hNe.symm) rfl
    (fun frame hEnter => ?_) fun hYield => nomatch hYield
  cases hEnter
  exact ⟨rfl, e, hGet, rfl, get?_put_same hAfter⟩

/-- An answered dispatch leaves behind what its answer tells. -/
theorem dispatch_handover (sound : t.Sound free) (hNamed : t.named? target = some slot)
    (hResult : ((dispatch target).outcome t).result = .ok next) :
    Handover t slot next ((dispatch target).outcome t).state := by
  have soundAfter := dispatch_reaps sound hResult
  obtain ⟨r, t', hEnds, hHow⟩ := dispatch_ends sound target
  rw [hEnds.outcome_eq] at hResult soundAfter ⊢
  cases hHow with
  | refused | panicked => cases hResult
  | reapedCurrent hSlot hGet hDying hReaped =>
      cases hNamed.symm.trans hSlot
      cases hResult
      exact handover_preempted sound soundAfter hGet hReaped
  | reapedTarget hSlot hGet hDying hReaped hAfter =>
      cases hNamed.symm.trans hSlot
      cases hResult
      exact handover_freed sound soundAfter hGet hDying hAfter
  | entered hSlot hGet hRuns hAfter =>
      cases hNamed.symm.trans hSlot
      cases hResult
      exact handover_entered sound soundAfter hGet hAfter

/-- A dispatch is refused exactly if the target names nothing, yields exactly if it is dying, and
enters exactly if it can run, or runs as the current environment. Its answer tells what it leaves
behind. -/
theorem dispatch_specified (run : Run build events t) (target : Handle) :
    let answer := (dispatch target).outcome t
    (∀ slot, ((resolve .reserved false).outcome t).result = .ok slot ↔ t.current = some slot) ∧
    (answer.result = .error (.refused .badEnvironment) ↔
      ∀ slot, ((resolve target false).outcome t).result ≠ .ok slot) ∧
    (answer.result = .ok .yield ↔ ∃ slot e,
      ((resolve target false).outcome t).result = .ok slot ∧ t.get? slot = some e ∧
        e.status = .dying) ∧
    ((∃ frame, answer.result = .ok (.enter frame)) ↔ ∃ slot e,
      ((resolve target false).outcome t).result = .ok slot ∧ t.get? slot = some e ∧
        (e.status = .runnable ∨ e.status = .running ∧ t.current = some slot)) ∧
    ∀ slot next, ((resolve target false).outcome t).result = .ok slot → answer.result = .ok next →
      Handover t slot next answer.state := by
  have sound := run.sound
  simp only [ne_eq, resolve_eq_ok_iff sound]
  refine ⟨fun slot => by rw [named?_of_reserved rfl], ?_⟩
  cases hNamed : t.named? target with
  | none => simp [(dispatch_refuses sound hNamed).outcome_eq]
  | some slot =>
      obtain ⟨e, hGet, -⟩ := sound.named_live hNamed
      have hResult := dispatch_result sound hNamed hGet
      simp only [Option.some.injEq]
      refine ⟨?_, ?_, ?_, ?_⟩
      · rw [hResult]
        split
        · simp
        · split <;> simp
      · rw [hResult]
        split
        · next hDying => simp [hGet, hDying]
        · next hNot => split <;> simp [hGet, hNot]
      · rw [hResult]
        split
        · next hDying => simp [hGet, hDying]
        · split
          · next hCanRun => simp [hGet, hCanRun]
          · next hCannot => simpa [hGet] using hCannot
      · rintro _ next rfl hNext
        exact dispatch_handover sound hNamed hNext

/-- Releasing the doomed environment of the sample takes the processor from the other one, which
stays current all the same. -/
theorem dispatch_specified_relieved :
    let after := ((dispatch ⟨0x1000⟩).outcome Sample.dooming.after).state
    Run .bare [Sample.dooming, Sample.entering, Sample.second, Sample.first] Sample.dooming.after ∧
      after.current = some 1 ∧ (∃ e, after.get? 0 = some e ∧ e.status = .free) ∧
      ∃ e, Sample.dooming.after.get? 1 = some e ∧ e.status = .running ∧
        after.get? 1 = some { e with status := .runnable } := by
  intro after
  have hNamed : ((resolve ⟨0x1000⟩ false).outcome Sample.dooming.after).result = .ok 0 :=
    (resolve_eq_ok_iff Sample.run_doomed.sound).mpr (by decide +kernel)
  have hDying : (Sample.dooming.after.get? 0).map (·.status) = some .dying := by decide +kernel
  have hRunning : (Sample.dooming.after.get? 1).map (·.status) = some .running := by
    decide +kernel
  have hCurrent : Sample.dooming.after.current = some 1 := by decide +kernel
  obtain ⟨e₀, hGet₀, hStatus₀⟩ := Option.map_eq_some_iff.mp hDying
  obtain ⟨e₁, hGet₁, hStatus₁⟩ := Option.map_eq_some_iff.mp hRunning
  obtain ⟨-, -, hYields, -, hHandover⟩ := dispatch_specified Sample.run_doomed ⟨0x1000⟩
  have handover := hHandover 0 .yield hNamed (hYields.mpr ⟨0, e₀, hNamed, hGet₀, hStatus₀⟩)
  obtain ⟨-, hStays, e, link, hGet, hFreed⟩ := handover.yields rfl
  obtain ⟨link', hRelieved, hLink⟩ := handover.relieves 1 e₁ hCurrent (by decide) hGet₁
  refine ⟨Sample.run_doomed, ?_, ⟨_, hFreed, rfl⟩, e₁, hGet₁, hStatus₁, ?_⟩
  · simp [after, hStays, hCurrent, isDying_eq hGet₁, hStatus₁]
  · rw [hRelieved, hLink (by simp [hStatus₁]), hStatus₁]
    rfl

end Table

end Supervisor
