import Supervisor.Proofs.Table.Run

/-! Handles are safe in a run without a reset. None is issued twice, and each is found exactly as
long as its environment is in its slot. -/

namespace Supervisor.Table

open Effect

variable {c : Capacity} {build : Build} {t : Table c} {events : List (Event c)} {slot other : Nat}
  {tenant earlier : Tenant} {past older recent : List Action} {h : Handle}

/-- The number of a handle that was issued, as it stands in the handle. -/
theorem Proper.toInt_of_take (proper : Proper c (.take slot tenant :: older)) :
    tenant.handle.raw.toInt = 4096 * (number slot older + 1) + slot := by
  cases proper with
  | take _ _ hLt hHandle hNumber =>
      have hFits := Nat.lt_of_lt_of_le hLt c.size_le_step
      rw [hHandle, Handle.toInt_numbered hFits (Nat.succ_pos _)
        (by unfold Handle.lastNumber; omega)]
      omega

/-- Among the handles issued before, none is the same and those of the same slot are smaller. -/
theorem Proper.earlier_of_take (proper : Proper c (.take slot tenant :: older))
    (hReset : .reset ∉ older) (hMem : .take other earlier ∈ older) :
    earlier.handle ≠ tenant.handle ∧
      (other = slot → earlier.handle.raw.toInt < tenant.handle.raw.toInt) := by
  have hInt := proper.toInt_of_take
  cases proper with
  | take hOlder _ hLt hHandle hNumber =>
      obtain ⟨hOther, n, hNumbered, hPos, hCounted, hFew⟩ := hOlder.numbered_of_mem hReset hMem
      have hLast : n ≤ Handle.lastNumber := by
        unfold Handle.lastNumber
        omega
      have hEarlier : earlier.handle.raw.toInt = 4096 * n + other := by
        rw [hNumbered, Handle.toInt_numbered (Nat.lt_of_lt_of_le hOther c.size_le_step) hPos hLast]
      have hSmaller : other = slot → earlier.handle.raw.toInt < tenant.handle.raw.toInt := by
        rintro rfl
        rw [hInt, hEarlier]
        omega
      refine ⟨?_, hSmaller⟩
      intro hSame
      have hSlots : other = slot := by
        rw [← Handle.slotIn_numbered hOther hPos hLast, ← hNumbered, hSame, hHandle]
        exact Handle.slotIn_numbered hLt (Nat.succ_pos _) (by unfold Handle.lastNumber; omega)
      have hLess := hSmaller hSlots
      rw [hSame] at hLess
      exact Int.lt_irrefl _ hLess

/-- No handle is issued twice: what was issued with the same handle is the same action. -/
theorem Proper.take_unique {recent' older' : List Action} (proper : Proper c past)
    (hReset : .reset ∉ past) (hSplit : past = recent ++ .take slot tenant :: older)
    (hSplit' : past = recent' ++ .take other earlier :: older')
    (hHandle : earlier.handle = tenant.handle) : recent' = recent ∧ other = slot := by
  have hNot {recent older : List Action} {slot other : Nat} {tenant earlier : Tenant}
      (hSplit : past = recent ++ .take slot tenant :: older)
      (hHandle : earlier.handle = tenant.handle) : .take other earlier ∉ older := by
    intro hMem
    rw [hSplit] at proper hReset
    have hOlder : .reset ∉ older := fun hMem =>
      hReset (List.mem_append_right _ (List.mem_cons_of_mem _ hMem))
    exact (proper.of_append.earlier_of_take hOlder hMem).1 hHandle
  rcases List.append_eq_append_iff.mp (hSplit'.symm.trans hSplit) with
    ⟨between, hRecent, hRest⟩ | ⟨between, hRecent, hRest⟩
  · cases between with
    | nil =>
        cases hRest
        exact ⟨by simpa using hRecent.symm, rfl⟩
    | cons action between =>
        cases hRest
        exact absurd (List.mem_append_right _ (List.mem_cons_self ..)) (hNot hSplit' hHandle.symm)
  · cases between with
    | nil =>
        cases hRest
        exact ⟨by simpa using hRecent, rfl⟩
    | cons action between =>
        cases hRest
        exact absurd (List.mem_append_right _ (List.mem_cons_self ..)) (hNot hSplit hHandle)

/-- The reserved handle is never issued. -/
theorem Proper.not_isReserved (proper : Proper c past) (hReset : .reset ∉ past)
    (hMem : .take slot tenant ∈ past) : ¬ tenant.handle.isReserved := by
  obtain ⟨hLt, n, hNumbered, hPos, -, hFew⟩ := proper.numbered_of_mem hReset hMem
  rw [Handle.isReserved_iff, hNumbered]
  exact Handle.numbered_ne_reserved (Nat.lt_of_lt_of_le hLt c.size_le_step) hPos
    (by unfold Handle.lastNumber; omega)

/-- A slot has a tenant exactly if its record is in use, and then the record is the tenant's. -/
theorem Tracked.get?_of_tenant? (tracked : t.Tracked past) (hLt : slot < c.size)
    (hTenant : tenant? slot past = some tenant) :
    ∃ e, t.get? slot = some e ∧ e.tenant = tenant ∧ e.status ≠ .free := by
  obtain ⟨e, hGet⟩ := t.exists_get? hLt
  rw [tracked.tenant_eq hGet] at hTenant
  by_cases hFree : e.status = .free
  · rw [if_pos hFree] at hTenant
    cases hTenant
  · rw [if_neg hFree] at hTenant
    exact ⟨e, hGet, Option.some.inj hTenant, hFree⟩

/-- The handle of the present tenant of a slot names that slot. -/
theorem Tracked.named?_of_tenant? {n : Nat} (tracked : t.Tracked past) (hLt : slot < c.size)
    (hTenant : tenant? slot past = some tenant) (hNumbered : tenant.handle = .numbered slot n)
    (hPos : 0 < n) (hLast : n ≤ Handle.lastNumber) :
    t.named? tenant.handle = some slot ∧
      ∃ e, t.get? slot = some e ∧ e.tenant = tenant ∧ e.status ≠ .free := by
  obtain ⟨e, hGet, hSame, hLive⟩ := tracked.get?_of_tenant? hLt hTenant
  have hReserved : ¬ tenant.handle.isReserved := by
    rw [Handle.isReserved_iff, hNumbered]
    exact Handle.numbered_ne_reserved (Nat.lt_of_lt_of_le hLt c.size_le_step) hPos hLast
  have hSlot : slot = tenant.handle.slotIn c := by
    rw [hNumbered, Handle.slotIn_numbered hLt hPos hLast]
  exact ⟨(named?_eq_some_iff hReserved).mpr ⟨hSlot, e, hGet, hLive, congrArg Tenant.handle hSame⟩,
    e, hGet, hSame, hLive⟩

/-- A handle that was issued for a slot which was not released since names that slot. -/
theorem Tracked.named?_of_take (tracked : t.Tracked past) (proper : Proper c past)
    (hReset : .reset ∉ past) (hSplit : past = recent ++ .take slot tenant :: older)
    (hKept : .give slot ∉ recent) :
    t.named? tenant.handle = some slot ∧
      ∃ e, t.get? slot = some e ∧ e.tenant = tenant ∧ e.status ≠ .free := by
  rw [hSplit] at tracked proper hReset
  have hTenant := proper.tenant?_of_take (fun hMem => hReset (List.mem_append_left _ hMem)) hKept
  have hMem : Action.take slot tenant ∈ recent ++ .take slot tenant :: older :=
    List.mem_append_right _ (List.mem_cons_self ..)
  obtain ⟨hLt, n, hNumbered, hPos, -, hFew⟩ := proper.numbered_of_mem hReset hMem
  exact tracked.named?_of_tenant? hLt hTenant hNumbered hPos
    (by unfold Handle.lastNumber; omega)

/-- A handle names a slot only if it was issued for it and the slot was not released since. -/
theorem Tracked.take_of_named? (tracked : t.Tracked past) (hReserved : ¬ h.isReserved)
    (hNamed : t.named? h = some slot) : ∃ recent slot tenant older,
      past = recent ++ .take slot tenant :: older ∧ tenant.handle = h ∧ .give slot ∉ recent := by
  obtain ⟨-, e, hGet, hLive, hHandle⟩ := (named?_eq_some_iff hReserved).mp hNamed
  obtain ⟨recent, older, hSplit, hKept⟩ := take_of_tenant? (tracked.tenant?_eq_some hGet hLive)
  exact ⟨recent, slot, e.tenant, older, hSplit, hHandle, hKept⟩

/-- The record of an environment in use is the one that its handle names. -/
theorem Tracked.named?_handle {e : Environment} (tracked : t.Tracked past)
    (proper : Proper c past) (hReset : .reset ∉ past) (hGet : t.get? slot = some e)
    (hLive : e.status ≠ .free) : t.named? e.handle = some slot := by
  obtain ⟨recent, older, hSplit, hKept⟩ := take_of_tenant? (tracked.tenant?_eq_some hGet hLive)
  exact (tracked.named?_of_take proper hReset hSplit hKept).1

/-- The handle of an environment that was released names nothing. -/
theorem Tracked.named?_of_given (tracked : t.Tracked (recent ++ older))
    (proper : Proper c (recent ++ older)) (hReset : .reset ∉ recent ++ older)
    (hTenant : tenant? slot older = some tenant) (hGiven : .give slot ∈ recent) :
    t.named? tenant.handle = none := by
  obtain ⟨middle, oldest, hOlder, -⟩ := take_of_tenant? hTenant
  have hSplit : recent ++ older = (recent ++ middle) ++ .take slot tenant :: oldest := by
    rw [hOlder, List.append_assoc]
  have hMem : Action.take slot tenant ∈ recent ++ older := by
    rw [hSplit]
    exact List.mem_append_right _ (List.mem_cons_self ..)
  cases hNamed : t.named? tenant.handle with
  | none => rfl
  | some other =>
      obtain ⟨recent', other', tenant', older', hSplit', hHandle, hKept⟩ :=
        tracked.take_of_named? (proper.not_isReserved hReset hMem) hNamed
      obtain ⟨rfl, rfl⟩ := proper.take_unique hReset hSplit hSplit' hHandle
      exact absurd (List.mem_append_left _ hGiven) hKept

/-- At the end of any run the handle of an environment in use names its slot. -/
theorem Run.named?_handle {e : Environment} (run : Run build events t)
    (hGet : t.get? slot = some e) (hLive : e.status ≠ .free) : t.named? e.handle = some slot := by
  obtain ⟨tracked, proper⟩ := run.tracked
  exact tracked.era.named?_handle proper.era (reset_not_mem_era _) hGet hLive

/-- From one point of a run to another without a reset in between, the handle of an environment goes
on naming its slot until that is given back, and names nothing from then on. -/
theorem Run.named?_later {earlier later : List (Event c)} {t' : Table c} {e : Environment}
    (before : Run build earlier t) (run : Run build (later ++ earlier) t')
    (hReset : .reset ∉ history later) (hGet : t.get? slot = some e) (hLive : e.status ≠ .free) :
    t'.named? e.handle = if .give slot ∈ history later then none else some slot := by
  by_cases hGiven : .give slot ∈ history later
  · rw [if_pos hGiven]
    obtain ⟨tracked, proper⟩ := run.tracked
    have hTenant := before.tracked.1.era.tenant?_eq_some hGet hLive
    have hHistory : era (history (later ++ earlier)) =
        history later ++ era (history earlier) := by
      rw [history, List.flatMap_append]
      exact era_append hReset _
    have trackedEra := tracked.era
    have properEra := proper.era
    have hNone := reset_not_mem_era (history (later ++ earlier))
    rw [hHistory] at trackedEra properEra hNone
    exact trackedEra.named?_of_given properEra hNone hTenant hGiven
  · rw [if_neg hGiven]
    rw [← filterMap_deeds build] at hReset hGiven
    obtain ⟨e', hGet', hTenant, hLive', -⟩ := (before.between run).stays before.sound
      (mt reset_mem_filterMap.mpr hReset) (mt give_mem_filterMap.mpr hGiven) hGet hLive
    have hHandle : e'.handle = e.handle := congrArg Tenant.handle hTenant
    rw [← hHandle]
    exact run.named?_handle hGet' hLive'

end Supervisor.Table
