import Supervisor.Proofs.Table.Dying

/-! The reserved handle stands for the current environment, and no environment is ever given it. -/

namespace Supervisor.Table

open Effect

variable {c : Capacity} {build : Build} {t : Table c} {events : List (Event c)} {slot : Nat}
  {e : Environment} {free : List Nat} {h h' : Handle}

/-- In a table two handles are as good as each other. Whatever came before, any operation does the
same with either: result, table, writes and log records. -/
structure Alias (t : Table c) (h h' : Handle) : Prop where
  lookup : ∀ checked trace, lookup h checked ⟨t, trace⟩ = lookup h' checked ⟨t, trace⟩
  setStatus : ∀ checked status trace,
    setStatus h checked status ⟨t, trace⟩ = setStatus h' checked status ⟨t, trace⟩
  editFrame : ∀ checked edit trace,
    editFrame h checked edit ⟨t, trace⟩ = editFrame h' checked edit ⟨t, trace⟩
  release : ∀ trace, release h ⟨t, trace⟩ = release h' ⟨t, trace⟩
  destroy : ∀ trace, destroy h ⟨t, trace⟩ = destroy h' ⟨t, trace⟩
  dispatch : ∀ trace, dispatch h ⟨t, trace⟩ = dispatch h' ⟨t, trace⟩

/-- In a table a handle is good for nothing: any operation is refused and does nothing. -/
structure Unknown (t : Table c) (h : Handle) : Prop where
  lookup : ∀ checked,
    (lookup h checked).outcome t = ⟨[], .error (.refused .badEnvironment), t⟩
  setStatus : ∀ checked status,
    (setStatus h checked status).outcome t = ⟨[], .error (.refused .badEnvironment), t⟩
  editFrame : ∀ checked edit,
    (editFrame h checked edit).outcome t = ⟨[], .error (.refused .badEnvironment), t⟩
  release : (release h).outcome t = ⟨[], .error (.refused .badEnvironment), t⟩
  destroy : (destroy h).outcome t = ⟨[], .error (.refused .badEnvironment), t⟩
  dispatch : (dispatch h).outcome t = ⟨[], .error (.refused .badEnvironment), t⟩

/-- Only the slot that a handle names is used to resolve it, also if a permission is checked. -/
theorem resolve_congr {α : Type} (hSame : t.named? h = t.named? h') (checked : Bool)
    (next : Nat → Op c α) (trace : Trace) :
    (resolve h checked >>= next) ⟨t, trace⟩ = (resolve h' checked >>= next) ⟨t, trace⟩ := by
  have hOther := resolveSlot_reads t h'
  rw [← hSame] at hOther
  simp only [resolve, bind_assoc]
  exact (resolveSlot_reads t h).bind_congr hOther _ trace

/-- Handles of one slot are as good as each other. -/
theorem alias_of_named? (hSame : t.named? h = t.named? h') : Alias t h h' where
  lookup := fun checked trace => resolve_congr hSame checked _ trace
  setStatus := fun checked _ trace => resolve_congr hSame checked _ trace
  editFrame := fun checked _ trace => resolve_congr hSame checked _ trace
  release := fun trace => resolve_congr hSame false _ trace
  destroy := fun trace => resolve_congr hSame false _ trace
  dispatch := fun trace => resolve_congr hSame false _ trace

/-- A handle of no slot is good for nothing. -/
theorem unknown_of_named? (sound : t.Sound free) (hNone : t.named? h = none) : Unknown t h := by
  have hReach (checked : Bool) : t.reachable? h checked = none := by
    rw [reachable?, hNone, Option.filter_none]
  have hStops {α : Type} (checked : Bool) (next : Nat → Op c α) :
      (resolve h checked >>= next).outcome t = _ :=
    (resolve_stops sound (hReach checked) next).outcome_eq
  exact ⟨fun checked => hStops checked _, fun checked _ => hStops checked _,
    fun checked _ => hStops checked _, hStops false _, hStops false _, hStops false _⟩

/-- The handle that the next environment of a slot would get. -/
theorem Tracked.successor_ne_reserved {past : List Action} (tracked : t.Tracked past)
    (hGet : t.get? slot = some e) (hRoom : Layout.stackSize ≤ t.stackTop) :
    e.handle.successor c slot ≠ .reserved := by
  have hNumber := Nat.lt_of_le_of_lt (number_le_taken slot past) (tracked.taken_lt hRoom)
  rw [tracked.successor_eq hGet hRoom]
  exact Handle.numbered_ne_reserved (Nat.lt_of_lt_of_le (lt_of_get? hGet) c.size_le_step)
    (Nat.succ_pos _) (by unfold Handle.lastNumber; omega)

theorem Run.live_ne_reserved (run : Run build events t) (hGet : t.get? slot = some e)
    (hLive : e.status ≠ .free) : e.handle ≠ .reserved := by
  obtain ⟨tracked, proper⟩ := run.tracked
  obtain ⟨recent, older, hSplit, -⟩ :=
    take_of_tenant? (tracked.era.tenant?_eq_some hGet hLive)
  have hMem : .take slot e.tenant ∈ era (history events) := by
    rw [hSplit]
    exact List.mem_append_right _ (List.mem_cons_self ..)
  exact mt Handle.isReserved_iff.mpr (proper.era.not_isReserved (reset_not_mem_era _) hMem)

theorem Run.allocate_ne_reserved (run : Run build events t) {parent : Handle} {kind : Kind}
    (hIssued : ((allocate build parent kind).outcome t).result = .ok h) : h ≠ .reserved := by
  have tracked := run.tracked.1
  have sound := tracked.sound
  rcases allocate_cases sound build parent kind with
    ⟨error, hEnds⟩ | ⟨slot, e, rest, hFree, hGet, hRoom⟩
  · rw [hEnds.outcome_eq] at hIssued
    cases hIssued
  · rw [hFree] at sound
    rw [(allocate_ends sound hGet hRoom).outcome_eq] at hIssued
    cases hIssued
    exact tracked.successor_ne_reserved hGet hRoom

theorem Run.create_ne_reserved (run : Run build events t) {file : Buffer} {kind : Kind}
    {limit : UInt64} {resolver : Loading.Resolver}
    (hIssued : ((create build file kind limit resolver).outcome t).result = .ok h) :
    h ≠ .reserved := by
  have tracked := run.tracked.1
  have sound := tracked.sound
  rcases create_cases sound build file kind limit resolver with
    ⟨writes, error, hEnds⟩ | ⟨writes, span, slot, e, rest, hFree, hGet, hRoom, hLoad⟩
  · rw [hEnds.outcome_eq] at hIssued
    cases hIssued
  · rw [hFree] at sound
    rw [(create_ends sound hGet hRoom hLoad).outcome_eq] at hIssued
    cases hIssued
    exact tracked.successor_ne_reserved hGet hRoom

/-- The current environment can always reach itself. -/
theorem permits_current (hCurrent : t.current = some slot) (hGet : t.get? slot = some e) :
    t.permits slot := by
  simp [permits, currentHandle?_of_get? hCurrent hGet, hGet]

/-- The reserved handle is as good as that of the current environment in every operation, and every
operation refuses it if there is none. No environment in use has it, and none that is allocated or
created is given it. -/
theorem reserved_stands_for_current (run : Run build events t) :
    (∀ handle, (currentHandle.outcome t).result = .ok (some handle) →
      Alias t .reserved handle ∧
        ∃ e, t.current.bind t.get? = some e ∧ e.handle = handle ∧
          ∀ checked, (lookup .reserved checked).outcome t = ⟨[], .ok e, t⟩) ∧
    ((currentHandle.outcome t).result = .ok none → Unknown t .reserved) ∧
    (∀ slot e, t.get? slot = some e → e.status ≠ .free → e.handle ≠ .reserved) ∧
    (∀ parent kind handle, ((allocate build parent kind).outcome t).result = .ok handle →
      handle ≠ .reserved) ∧
    ∀ file kind limit resolver handle,
      ((create build file kind limit resolver).outcome t).result = .ok handle →
        handle ≠ .reserved := by
  have sound := run.sound
  have hReserved : t.named? .reserved = t.current := named?_of_reserved rfl
  rw [(currentHandle_ends sound.hasCurrent).outcome_eq]
  refine ⟨?_, ?_, fun _ _ => run.live_ne_reserved, fun _ _ _ => run.allocate_ne_reserved,
    fun _ _ _ _ _ => run.create_ne_reserved⟩
  · intro handle hHandle
    obtain ⟨e, hFound, rfl⟩ := Option.map_eq_some_iff.mp (Except.ok.inj hHandle)
    obtain ⟨slot, hCurrent, hGet⟩ := Option.bind_eq_some_iff.mp hFound
    obtain ⟨found, hSame, hLive⟩ := sound.current_live hCurrent
    cases hGet.symm.trans hSame
    rw [hCurrent] at hReserved
    refine ⟨alias_of_named? (hReserved.trans (run.named?_handle hGet hLive).symm), e, hFound, rfl,
      fun checked => ?_⟩
    have hReach : t.reachable? .reserved checked = some slot := by
      rw [reachable?_of_named? hReserved, permits_current hCurrent hGet, Bool.or_true, if_pos rfl]
    exact (lookup_ends sound hReach hGet).outcome_eq
  · intro hHandle
    apply unknown_of_named? sound
    rw [hReserved]
    cases hCurrent : t.current with
    | none => rfl
    | some slot =>
        obtain ⟨e, hGet, -⟩ := sound.current_live hCurrent
        cases (currentHandle?_of_get? hCurrent hGet).symm.trans (Except.ok.inj hHandle)

/-- In the samples the reserved handle stands for the second environment once that is entered, and
for none before any is. -/
theorem reserved_stands_for_current_entered :
    let t := Sample.dooming.after
    Run .bare [Sample.dooming, Sample.entering, Sample.second, Sample.first] t ∧
      (currentHandle.outcome t).result = .ok (some ⟨0x1001⟩) ∧ Alias t .reserved ⟨0x1001⟩ ∧
      Run .bare [Sample.third, Sample.second, Sample.first] Sample.third.after ∧
      (currentHandle.outcome Sample.third.after).result = .ok none ∧
      Unknown Sample.third.after .reserved := by
  intro t
  have hEntered : t.currentHandle? = some ⟨0x1001⟩ := by decide +kernel
  have hNone : Sample.third.after.currentHandle? = none := by decide +kernel
  have hHandle : (currentHandle.outcome t).result = .ok (some ⟨0x1001⟩) := by
    rw [(currentHandle_ends Sample.run_doomed.sound.hasCurrent).outcome_eq, hEntered]
  have hNobody : (currentHandle.outcome Sample.third.after).result = .ok none := by
    rw [(currentHandle_ends Sample.run_three.sound.hasCurrent).outcome_eq, hNone]
  exact ⟨Sample.run_doomed, hHandle,
    ((reserved_stands_for_current Sample.run_doomed).1 _ hHandle).1, Sample.run_three, hNobody,
    (reserved_stands_for_current Sample.run_three).2.1 hNobody⟩

end Supervisor.Table
