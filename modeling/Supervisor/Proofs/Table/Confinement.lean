import Supervisor.Proofs.Table.HandleSafety

/-! Permission. Where parents are named by handles that were issued before, whoever reaches another
environment is its parent and not a later tenant of that slot. -/

namespace Supervisor.Table

open Effect

variable {c : Capacity} {build : Build} {t : Table c} {events : List (Event c)}
  {slot own other : Nat} {e caller : Environment} {tenant : Tenant} {free : List Nat}
  {past recent older : List Action} {h : Handle}

/-- No two environments in use have the same handle. -/
theorem Tracked.slot_unique {e' : Environment} (tracked : t.Tracked past) (proper : Proper c past)
    (hGet : t.get? slot = some e) (hLive : e.status ≠ .free) (hGet' : t.get? other = some e')
    (hLive' : e'.status ≠ .free) (hSame : e.handle = e'.handle) : slot = other := by
  have hSlot := tracked.slot_handle proper hGet hLive
  rw [hSame, tracked.slot_handle proper hGet' hLive'] at hSlot
  exact (Except.ok.inj hSlot).symm

/-- The current environment may reach its own slot and those whose environment has it as parent. -/
theorem Tracked.permits_iff (tracked : t.Tracked past) (proper : Proper c past)
    (hGet : t.get? slot = some e) (hLive : e.status ≠ .free) :
    t.permits slot ↔ ∃ own caller, t.current = some own ∧ t.get? own = some caller ∧
      (slot = own ∨ e.parent = caller.handle) := by
  cases hCurrent : t.current with
  | none => simp [permits, currentHandle?, hCurrent]
  | some own =>
      obtain ⟨caller, hOwn, hCaller⟩ := tracked.sound.current_live hCurrent
      have hSelf : e.handle = caller.handle ↔ slot = own := by
        constructor
        · exact tracked.slot_unique proper hGet hLive hOwn hCaller
        · rintro rfl
          cases hGet.symm.trans hOwn
          rfl
      simp [permits, currentHandle?, hCurrent, hOwn, hGet, hSelf]

/-- The handle was issued. -/
def Issued (h : Handle) (past : List Action) : Prop :=
  ∃ slot tenant, .take slot tenant ∈ past ∧ tenant.handle = h

/-- Whenever an allocation is asked for, the parent that it names is nobody or was issued
before. -/
def ParentsIssued : List (Event c) → Prop
  | [] => True
  | ev :: earlier =>
      (∀ parent kind, ev.command = .allocate parent kind →
        parent = .reserved ∨ Issued parent (history earlier)) ∧ ParentsIssued earlier

/-- The parent of every tenant is nobody or was a tenant before. -/
def Rooted : List Action → Prop
  | [] => True
  | .take _ tenant :: past => (tenant.parent = .reserved ∨ Issued tenant.parent past) ∧ Rooted past
  | .reset :: past | .give _ :: past => Rooted past

theorem Rooted.of_append (rooted : Rooted (recent ++ older)) : Rooted older := by
  induction recent with
  | nil => exact rooted
  | cons action recent ih =>
      cases action with
      | take slot tenant => exact ih rooted.2
      | reset | give slot => exact ih rooted

theorem Rooted.give (rooted : Rooted past) (slots : List Nat) :
    Rooted (slots.map .give ++ past) := by
  induction slots with
  | nil => exact rooted
  | cons _ _ ih => exact ih

/-- What a command does leaves the history rooted, if the parent that it names is. -/
theorem Event.rooted {ev : Event c} (rooted : Rooted past)
    (hParent : ∀ parent kind, ev.command = .allocate parent kind →
      parent = .reserved ∨ Issued parent past) : Rooted (ev.actions ++ past) := by
  obtain ⟨before, command, response, after⟩ := ev
  unfold actions
  split
  · exact rooted
  · next parent kind handle hCommand _ => exact ⟨hParent parent kind hCommand, rooted⟩
  · exact ⟨.inl rfl, rooted⟩
  · exact rooted.give _
  · exact rooted.give _
  · exact rooted.give _
  · exact rooted

theorem ParentsIssued.rooted (hParents : ParentsIssued events) : Rooted (history events) := by
  induction events with
  | nil => trivial
  | cons ev events ih => exact Event.rooted (ih hParents.2) hParents.1

/-- An environment whose parent is the handle of another was taken while that one was in its slot,
and neither was given back since. -/
theorem Tracked.family (tracked : t.Tracked past) (proper : Proper c past) (hReset : .reset ∉ past)
    (rooted : Rooted past) (hOwn : t.get? own = some caller) (hCaller : caller.status ≠ .free)
    (hGet : t.get? slot = some e) (hLive : e.status ≠ .free) (hParent : e.parent = caller.handle) :
    ∃ recent middle oldest,
      past = recent ++ .take slot e.tenant :: (middle ++ .take own caller.tenant :: oldest) ∧
        .give slot ∉ recent ∧ .give own ∉ recent ∧ .give own ∉ middle := by
  obtain ⟨recent, older, hSplit, hHeld⟩ := take_of_tenant? (tracked.tenant?_eq_some hGet hLive)
  obtain ⟨since, oldest, hSplit', hHeld'⟩ :=
    take_of_tenant? (tracked.tenant?_eq_some hOwn hCaller)
  have hTaken : .take own caller.tenant ∈ past := by
    rw [hSplit']
    exact List.mem_append_right _ (List.mem_cons_self ..)
  rw [hSplit] at rooted
  rcases rooted.of_append.1 with hNobody | ⟨other, earlier, hMem, hHandle⟩
  · have hReserved : caller.handle = .reserved := hParent.symm.trans hNobody
    exact absurd (Handle.isReserved_iff.mpr hReserved) (proper.not_isReserved hReset hTaken)
  · -- The handle was issued before the child was taken, and it was issued only once, so this is
    -- where the caller was taken.
    obtain ⟨middle, rest, hOlder⟩ := List.append_of_mem hMem
    have hFull : past =
        (recent ++ .take slot e.tenant :: middle) ++ .take other earlier :: rest := by
      rw [hSplit, hOlder, List.append_assoc, List.cons_append]
    have hNamed : earlier.handle = caller.tenant.handle := hHandle.trans hParent
    obtain ⟨hSince, rfl⟩ := proper.take_unique hReset hSplit' hFull hNamed
    have hRest := hSplit'.symm.trans hFull
    rw [hSince] at hRest
    obtain ⟨hTenant, -⟩ := List.cons.inj (List.append_cancel_left hRest)
    cases hTenant
    rw [← hSince] at hHeld'
    simp only [List.mem_append, List.mem_cons, not_or] at hHeld'
    exact ⟨recent, middle, rest, by rw [hSplit, hOlder], hHeld, hHeld'.1, hHeld'.2.2⟩

/-- A lookup changes nothing, and what it does not find it refuses. -/
theorem lookup_settles (sound : t.Sound free) (h : Handle) (checked : Bool) :
    ((lookup h checked).outcome t).state = t ∧
      ((∃ e, ((lookup h checked).outcome t).result = .ok e) ∨
        ((lookup h checked).outcome t).result = .error (.refused .badEnvironment)) := by
  cases hReach : t.reachable? h checked with
  | none =>
      have hEnds : (lookup h checked).Ends t [] _ t := resolve_stops sound hReach _
      rw [hEnds.outcome_eq]
      exact ⟨rfl, .inr rfl⟩
  | some slot =>
      obtain ⟨e, hGet, -⟩ := sound.named_live (named?_of_reachable? hReach)
      rw [(lookup_ends sound hReach hGet).outcome_eq]
      exact ⟨rfl, .inl ⟨e, rfl⟩⟩

/-- A lookup with a check finds what the handle names, if that is the current environment or has it
as parent. -/
theorem Tracked.lookup_checked_iff (tracked : t.Tracked past) (proper : Proper c past) :
    ((lookup h true).outcome t).result = .ok e ↔ ∃ own caller slot, t.current = some own ∧
      t.get? own = some caller ∧ t.named? h = some slot ∧ t.get? slot = some e ∧
      e.status ≠ .free ∧ (slot = own ∨ e.parent = caller.handle) := by
  rw [lookup_eq_ok_iff tracked.sound]
  constructor
  · rintro ⟨slot, hReach, hGet⟩
    obtain ⟨hNamed, hPermits⟩ := Option.filter_eq_some_iff.mp hReach
    obtain ⟨e', hGet', hLive⟩ := tracked.sound.named_live hNamed
    cases hGet.symm.trans hGet'
    obtain ⟨own, caller, hCurrent, hOwn, hFamily⟩ :=
      (tracked.permits_iff proper hGet hLive).mp (by simpa using hPermits)
    exact ⟨own, caller, slot, hCurrent, hOwn, hNamed, hGet, hLive, hFamily⟩
  · rintro ⟨own, caller, slot, hCurrent, hOwn, hNamed, hGet, hLive, hFamily⟩
    have hPermits :=
      (tracked.permits_iff proper hGet hLive).mpr ⟨own, caller, hCurrent, hOwn, hFamily⟩
    exact ⟨slot, Option.filter_eq_some_iff.mpr ⟨hNamed, by simpa using hPermits⟩, hGet⟩

/-- A checked lookup succeeds exactly for the current environment and for those in use that have its
handle as parent. In a run without a reset, whose parents were issued before, whoever reaches
another environment is the very tenant that was named as its parent. -/
theorem permission_confined (run : Run build events t) :
    (∀ h, let found := (lookup h true).outcome t
      found.state = t ∧
        ((∃ e, found.result = .ok e) ∨ found.result = .error (.refused .badEnvironment)) ∧
        ∀ e, found.result = .ok e ↔ ∃ own caller slot, t.current = some own ∧
          t.get? own = some caller ∧ ((resolve h false).outcome t).result = .ok slot ∧
          t.get? slot = some e ∧ e.status ≠ .free ∧
          (slot = own ∨ e.parent = caller.handle)) ∧
      ((∀ ev ∈ events, ev.command ≠ .reset) → ParentsIssued events →
        ∀ h e slot, ((lookup h true).outcome t).result = .ok e →
          ((resolve h false).outcome t).result = .ok slot →
          (t.current ≠ some slot → ∃ own caller recent middle oldest,
            t.current = some own ∧ t.get? own = some caller ∧ e.parent = caller.handle ∧
            history events =
              recent ++ .take slot e.tenant :: (middle ++ .take own caller.tenant :: oldest) ∧
            .give slot ∉ recent ∧ .give own ∉ recent ∧ .give own ∉ middle ∧
            ∀ since other earlier older, history events = since ++ .take other earlier :: older →
              earlier.handle = e.parent →
              since = recent ++ .take slot e.tenant :: middle ∧ other = own) ∧
          (e.parent = .reserved → t.current = some slot) ∧
          ∀ since other earlier older, history events = since ++ .take other earlier :: older →
            earlier.handle = e.parent → .give other ∈ since → t.current = some slot) := by
  obtain ⟨tracked, proper⟩ := run.tracked
  have sound := tracked.sound
  simp only [resolve_eq_ok_iff sound]
  refine ⟨?_, ?_⟩
  · intro h
    obtain ⟨hState, hSettled⟩ := lookup_settles sound h true
    exact ⟨hState, hSettled, fun e => tracked.lookup_checked_iff proper⟩
  · intro hKept hParents h e slot hFound hNamed
    have hReset := reset_not_mem_history hKept
    obtain ⟨own, caller, slot', hCurrent, hOwn, hNamed', hGet, hLive, hFamily⟩ :=
      (tracked.lookup_checked_iff proper).mp hFound
    cases hNamed.symm.trans hNamed'
    obtain ⟨caller', hOwn', hCaller⟩ := sound.current_live hCurrent
    cases hOwn.symm.trans hOwn'
    rcases hFamily with rfl | hParent
    · exact ⟨absurd hCurrent, fun _ => hCurrent, fun _ _ _ _ _ _ _ => hCurrent⟩
    · obtain ⟨recent, middle, oldest, hSplit, hHeld, hSince, hBetween⟩ :=
        tracked.family proper hReset hParents.rooted hOwn hCaller hGet hLive hParent
      have hFull : history events =
          (recent ++ .take slot e.tenant :: middle) ++ .take own caller.tenant :: oldest := by
        rw [hSplit, List.append_assoc, List.cons_append]
      have hUnique (since : List Action) (other : Nat) (earlier : Tenant) (older : List Action)
          (hSplit' : history events = since ++ .take other earlier :: older)
          (hHandle : earlier.handle = e.parent) :
          since = recent ++ .take slot e.tenant :: middle ∧ other = own :=
        proper.take_unique hReset hFull hSplit' (hHandle.trans hParent)
      refine ⟨fun _ => ?_, ?_, ?_⟩
      · exact ⟨own, caller, recent, middle, oldest, hCurrent, hOwn, hParent, hSplit, hHeld, hSince,
          hBetween, hUnique⟩
      · intro hNobody
        have hTaken : .take own caller.tenant ∈ history events := by simp [hFull]
        have hReserved : caller.handle.isReserved :=
          Handle.isReserved_iff.mpr (hParent.symm.trans hNobody)
        exact absurd hReserved (proper.not_isReserved hReset hTaken)
      · intro since other earlier older hSplit' hHandle hGiven
        obtain ⟨rfl, rfl⟩ := hUnique since other earlier older hSplit' hHandle
        simp [hSince, hBetween] at hGiven

namespace Sample

def child : Event pair :=
  (Event.of? .bare first.after (.allocate ⟨0x1000⟩ .user)).get (by decide +kernel)

def calling : Event pair :=
  (Event.of? .bare child.after (.dispatch ⟨0x1000⟩)).get (by decide +kernel)

def leaving : Event pair :=
  (Event.of? .bare calling.after (.release ⟨0x1000⟩)).get (by decide +kernel)

def replacing : Event pair :=
  (Event.of? .bare leaving.after (.allocate .reserved .user)).get (by decide +kernel)

def intruding : Event pair :=
  (Event.of? .bare replacing.after (.dispatch ⟨0x2000⟩)).get (by decide +kernel)

theorem run_calling : Run .bare [calling, child, first] calling.after :=
  .step (.step (.step .start (Option.some_get _).symm) (Option.some_get _).symm)
    (Option.some_get _).symm

theorem run_intruding :
    Run .bare [intruding, replacing, leaving, calling, child, first] intruding.after :=
  .step (.step (.step run_calling (Option.some_get _).symm) (Option.some_get _).symm)
    (Option.some_get _).symm

/-- The commands of the run name as parents nobody and the first environment, and are no resets. -/
theorem proper_intruding :
    (∀ ev ∈ [intruding, replacing, leaving, calling, child, first], ev.command ≠ .reset) ∧
      ParentsIssued [intruding, replacing, leaving, calling, child, first] := by
  have hFirst : first.command = _ := Event.command_of? (Option.some_get _).symm
  have hChild : child.command = _ := Event.command_of? (Option.some_get _).symm
  have hCalling : calling.command = _ := Event.command_of? (Option.some_get _).symm
  have hLeaving : leaving.command = _ := Event.command_of? (Option.some_get _).symm
  have hReplacing : replacing.command = _ := Event.command_of? (Option.some_get _).symm
  have hIntruding : intruding.command = _ := Event.command_of? (Option.some_get _).symm
  have hIssued : Issued ⟨0x1000⟩ (history [first]) :=
    ⟨0, ⟨⟨0x1000⟩, .reserved, .user⟩, by decide +kernel, rfl⟩
  simp [ParentsIssued, hFirst, hChild, hCalling, hLeaving, hReplacing, hIntruding, hIssued]

end Sample

theorem permission_confined_orphaned :
    Run .bare [Sample.calling, Sample.child, Sample.first] Sample.calling.after ∧
      (∃ (e : Environment) (own : Nat) (caller : Environment) (recent middle oldest : List Action),
        ((lookup ⟨0x1001⟩ true).outcome Sample.calling.after).result = .ok e ∧
        Sample.calling.after.current = some own ∧ e.parent = caller.handle ∧
        history [Sample.calling, Sample.child, Sample.first] =
          recent ++ .take 1 e.tenant :: (middle ++ .take own caller.tenant :: oldest)) ∧
      Run .bare [Sample.intruding, Sample.replacing, Sample.leaving, Sample.calling, Sample.child,
        Sample.first] Sample.intruding.after ∧
      ((lookup ⟨0x1001⟩ true).outcome Sample.intruding.after).result =
        .error (.refused .badEnvironment) := by
  obtain ⟨hReset, hParents⟩ := Sample.proper_intruding
  obtain ⟨hReach, hConfined⟩ := permission_confined Sample.run_calling
  obtain ⟨hBarred, hOrphaned⟩ := permission_confined Sample.run_intruding
  refine ⟨Sample.run_calling, ?_, Sample.run_intruding, ?_⟩
  · have hOwn : (Sample.calling.after.get? 0).map (·.handle) = some ⟨0x1000⟩ := by decide +kernel
    have hChild : (Sample.calling.after.get? 1).map (fun e => (e.parent, e.status)) =
        some (⟨0x1000⟩, .runnable) := by
      decide +kernel
    have hNamed : Sample.calling.after.named? ⟨0x1001⟩ = some 1 := by decide +kernel
    have hCurrent : Sample.calling.after.current = some 0 := by decide +kernel
    obtain ⟨caller, hCaller, hHandle⟩ := Option.map_eq_some_iff.mp hOwn
    obtain ⟨e, hGet, hBoth⟩ := Option.map_eq_some_iff.mp hChild
    obtain ⟨hParent, hStatus⟩ := Prod.mk.inj hBoth
    have hResolved := (resolve_eq_ok_iff Sample.run_calling.sound).mpr hNamed
    have hFound := ((hReach ⟨0x1001⟩).2.2 e).mpr ⟨0, caller, 1, hCurrent, hCaller, hResolved, hGet,
      by simp [hStatus], .inr (hParent.trans hHandle.symm)⟩
    have hEarlier : ∀ ev ∈ [Sample.calling, Sample.child, Sample.first], ev.command ≠ .reset :=
      fun ev hMem => hReset ev (List.mem_append_right
        [Sample.intruding, Sample.replacing, Sample.leaving] hMem)
    obtain ⟨hBorn, -, -⟩ := hConfined hEarlier hParents.2.2.2 _ _ _ hFound hResolved
    obtain ⟨own, caller, recent, middle, oldest, hOwn, -, hParent, hSplit, -⟩ :=
      hBorn (by simp [hCurrent])
    exact ⟨e, own, caller, recent, middle, oldest, hFound, hOwn, hParent, hSplit⟩
  · have hParent : (Sample.intruding.after.get? 1).map (·.parent) = some ⟨0x1000⟩ := by
      decide +kernel
    have hNamed : Sample.intruding.after.named? ⟨0x1001⟩ = some 1 := by decide +kernel
    have hCurrent : Sample.intruding.after.current ≠ some 1 := by decide +kernel
    have hHistory : history [Sample.intruding, Sample.replacing, Sample.leaving, Sample.calling,
        Sample.child, Sample.first] = [.take 0 ⟨⟨0x2000⟩, .reserved, .user⟩, .give 0,
          .take 1 ⟨⟨0x1001⟩, ⟨0x1000⟩, .user⟩] ++ .take 0 ⟨⟨0x1000⟩, .reserved, .user⟩ :: [] := by
      decide +kernel
    have hResolved := (resolve_eq_ok_iff Sample.run_intruding.sound).mpr hNamed
    rcases (hBarred ⟨0x1001⟩).2.1 with ⟨e, hFound⟩ | hRefused
    · obtain ⟨-, -, slot, -, -, hSlot, hGet, -⟩ := ((hBarred ⟨0x1001⟩).2.2 e).mp hFound
      cases hResolved.symm.trans hSlot
      rw [hGet] at hParent
      obtain ⟨-, -, hOrphan⟩ := hOrphaned hReset hParents _ _ _ hFound hResolved
      have hSelf := hOrphan _ _ _ _ hHistory (Option.some.inj hParent).symm (by decide)
      exact absurd hSelf hCurrent
    · exact hRefused

end Supervisor.Table
