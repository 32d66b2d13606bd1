import Supervisor.Proofs.Table.Change

/-! What the actions of a run say of the table at its end. `Tracked` says that a table agrees with
its history, `Proper` that each of its actions was possible when it came. -/

namespace Supervisor.Table

variable {c : Capacity} {t t' : Table c} {slot other : Nat} {e : Environment} {tenant : Tenant}
  {past recent older : List Action} {log : List Deed}

/-- The free list as a stack: slots are taken from the top and given back to it. -/
def stack (c : Capacity) (past : List Action) : List Nat :=
  past.foldr (Action.restack c) (List.range c.size)

/-- The number of slots taken since the last reset. -/
def taken : List Action → Nat
  | [] => 0
  | .reset :: _ => 0
  | .take _ _ :: past => taken past + 1
  | .give _ :: past => taken past

/-- How often a slot was taken since the last reset. -/
def number (slot : Nat) : List Action → Nat
  | [] => 0
  | .reset :: _ => 0
  | .take other _ :: past => if other = slot then number slot past + 1 else number slot past
  | .give _ :: past => number slot past

/-- The tenant of a slot that was taken and not given back. -/
def tenant? (slot : Nat) : List Action → Option Tenant
  | [] => none
  | .reset :: _ => none
  | .take other tenant :: past => if other = slot then some tenant else tenant? slot past
  | .give other :: past => if other = slot then none else tenant? slot past

theorem number_le_taken (slot : Nat) (past : List Action) : number slot past ≤ taken past := by
  induction past with
  | nil => exact Nat.le_refl 0
  | cons action past ih =>
      cases action with
      | reset => exact Nat.le_refl 0
      | give other => exact ih
      | take other tenant =>
          rw [number, taken]
          split
          · exact Nat.succ_le_succ ih
          · exact Nat.le_succ_of_le ih

/-- The table agrees with the history. -/
structure Tracked (t : Table c) (past : List Action) : Prop where
  sound : t.Sound (stack c past)
  room : t.stackTop.toNat + Layout.stackSize.toNat * taken past = Layout.stackTop.toNat
  handle_eq : ∀ {slot e}, t.get? slot = some e → e.handle = .numbered slot (number slot past)
  tenant_eq : ∀ {slot e}, t.get? slot = some e →
    tenant? slot past = if e.status = .free then none else some e.tenant

/-- Every slot was taken from the top of the stack, with the next handle and below the number of
stacks, and every slot given back had a tenant. -/
inductive Proper (c : Capacity) : List Action → Prop where
  | nil : Proper c []
  | reset {past : List Action} (hPast : Proper c past) : Proper c (.reset :: past)
  | take {slot : Nat} {tenant : Tenant} {past : List Action} (hPast : Proper c past)
      (hHead : (stack c past).head? = some slot) (hLt : slot < c.size)
      (hHandle : tenant.handle = .numbered slot (number slot past + 1))
      (hNumber : number slot past < 4096) (hNone : tenant? slot past = none) :
      Proper c (.take slot tenant :: past)
  | give {slot : Nat} {past : List Action} (hPast : Proper c past)
      (hSome : tenant? slot past ≠ none) : Proper c (.give slot :: past)

theorem tracked_new : (new : Table c).Tracked [] where
  sound := sound_new c.size_pos
  room := rfl
  handle_eq := by
    intro slot e hGet
    rw [get?_new (lt_of_get? hGet)] at hGet
    cases hGet
    rfl
  tenant_eq := by
    intro slot e hGet
    rw [get?_new (lt_of_get? hGet)] at hGet
    cases hGet
    rfl

/-- A reset begins a new history. -/
theorem tracked_reset (past : List Action) : (new : Table c).Tracked (.reset :: past) where
  sound := tracked_new.sound
  room := rfl
  handle_eq := tracked_new.handle_eq
  tenant_eq := tracked_new.tenant_eq

namespace Tracked

theorem tenant?_eq_none (tracked : t.Tracked past) (hGet : t.get? slot = some e)
    (hFree : e.status = .free) : tenant? slot past = none := by
  rw [tracked.tenant_eq hGet, if_pos hFree]

theorem tenant?_eq_some (tracked : t.Tracked past) (hGet : t.get? slot = some e)
    (hLive : e.status ≠ .free) : tenant? slot past = some e.tenant := by
  rw [tracked.tenant_eq hGet, if_neg hLive]

/-- Where there is room for a stack, fewer slots were taken than there are stacks. -/
theorem taken_lt (tracked : t.Tracked past) (hRoom : Layout.stackSize ≤ t.stackTop) :
    taken past < 4096 := by
  have hSum := tracked.room
  have hTop : Layout.stackTop.toNat = 33554432 := by decide
  have hSize : Layout.stackSize.toNat = 8192 := by decide
  have hLe := UInt64.le_iff_toNat_le.mp hRoom
  rw [hSize] at hSum hLe
  omega

/-- The next handle of a slot has the next number: with so few stacks no generation wraps. -/
theorem successor_eq (tracked : t.Tracked past) (hGet : t.get? slot = some e)
    (hRoom : Layout.stackSize ≤ t.stackTop) :
    e.handle.successor c slot = .numbered slot (number slot past + 1) := by
  have hNumber := number_le_taken slot past
  have hTaken := tracked.taken_lt hRoom
  rw [tracked.handle_eq hGet]
  exact Handle.successor_numbered (lt_of_get? hGet) (by unfold Handle.lastNumber; omega)

theorem put {e' : Environment} (tracked : t.Tracked past) (hGet : t.get? slot = some e)
    (hLive : e.status ≠ .free) (hLive' : e'.status ≠ .free) (hTenant : e'.tenant = e.tenant) :
    (t.put slot e').Tracked past where
  sound := tracked.sound.put hGet hLive hLive'
  room := tracked.room
  handle_eq := by
    intro other e'' hOther
    rcases get?_put_cases hGet hOther with ⟨rfl, rfl⟩ | ⟨_, hOld⟩
    · exact (congrArg Tenant.handle hTenant).trans (tracked.handle_eq hGet)
    · exact tracked.handle_eq hOld
  tenant_eq := by
    intro other e'' hOther
    rcases get?_put_cases hGet hOther with ⟨rfl, rfl⟩ | ⟨_, hOld⟩
    · rw [if_neg hLive', hTenant]
      exact tracked.tenant?_eq_some hGet hLive
    · exact tracked.tenant_eq hOld

theorem focus (tracked : t.Tracked past) (hGet : t.get? slot = some e) (hLive : e.status ≠ .free) :
    { t with current := some slot }.Tracked past where
  sound := tracked.sound.withCurrent hGet hLive
  room := tracked.room
  handle_eq := tracked.handle_eq
  tenant_eq := tracked.tenant_eq

theorem take {e' : Environment} (tracked : t.Tracked past) (hHead : t.freeHead = some slot)
    (hGet : t.get? slot = some e) (hRoom : Layout.stackSize ≤ t.stackTop)
    (hHandle : e'.handle = e.handle.successor c slot) (hLive : e'.status ≠ .free) :
    (t.granted slot e.link e').Tracked (.take slot e'.tenant :: past) where
  sound := (Change.take hHead hGet hRoom hHandle hLive).sound tracked.sound
  room := by
    have hSum := tracked.room
    have hLe := UInt64.le_iff_toNat_le.mp hRoom
    have hTop : (t.granted slot e.link e').stackTop.toNat =
        t.stackTop.toNat - Layout.stackSize.toNat := UInt64.toNat_sub_of_le _ _ hRoom
    rw [hTop, taken, Nat.mul_succ]
    omega
  handle_eq := by
    intro other e'' hOther
    rcases get?_put_cases hGet hOther with ⟨rfl, rfl⟩ | ⟨hNe, hOld⟩
    · rw [number, if_pos rfl, ← tracked.successor_eq hGet hRoom]
      exact hHandle
    · rw [number, if_neg hNe]
      exact tracked.handle_eq hOld
  tenant_eq := by
    intro other e'' hOther
    rcases get?_put_cases hGet hOther with ⟨rfl, rfl⟩ | ⟨hNe, hOld⟩
    · rw [tenant?, if_pos rfl, if_neg hLive]
    · rw [tenant?, if_neg hNe]
      exact tracked.tenant_eq hOld

theorem give (tracked : t.Tracked past) (hGet : t.get? slot = some e) (hLive : e.status ≠ .free) :
    (t.freed slot e).Tracked (.give slot :: past) where
  sound := tracked.sound.freed hGet hLive
  room := tracked.room
  handle_eq := by
    intro other e'' hOther
    rcases get?_put_cases hGet hOther with ⟨rfl, rfl⟩ | ⟨_, hOld⟩
    · have hKept : e.handle = .numbered slot (number slot past) := tracked.handle_eq hGet
      exact hKept
    · exact tracked.handle_eq hOld
  tenant_eq := by
    intro other e'' hOther
    rcases get?_put_cases hGet hOther with ⟨rfl, rfl⟩ | ⟨hNe, hOld⟩
    · rw [tenant?, if_pos rfl, if_pos rfl]
    · rw [tenant?, if_neg hNe]
      exact tracked.tenant_eq hOld

end Tracked

/-- Changes keep a table in agreement with its history, and add to it only what is possible. -/
theorem Change.tracked (change : Change t log t') (tracked : t.Tracked past)
    (proper : Proper c past) : t'.Tracked (log.filterMap Deed.action? ++ past) ∧
      Proper c (log.filterMap Deed.action? ++ past) := by
  induction change generalizing past with
  | keep t => exact ⟨tracked, proper⟩
  | reset t => exact ⟨tracked_reset past, .reset proper⟩
  | move hGet hLive hLive' _ => exact ⟨tracked.put hGet hLive hLive' rfl, proper⟩
  | edit hGet hLive => exact ⟨tracked.put hGet hLive hLive rfl, proper⟩
  | @enter t slot e hGet hRunnable =>
      have hLive : e.status ≠ .free := by simp [hRunnable]
      let running := { e with status := .running, runs := e.runs + 1 }
      have hRunning : (t.put slot running).Tracked past :=
        tracked.put hGet hLive Status.noConfusion rfl
      exact ⟨hRunning.focus (get?_put_same hGet) Status.noConfusion, proper⟩
  | @take t slot e e' hHead hGet hRoom hHandle hLive =>
      have hTop : (stack c past).head? = some slot := by
        rw [← tracked.sound.linked.head_eq]
        exact hHead
      have hFree : e.status = .free :=
        (tracked.sound.mem_iff hGet).mp (List.mem_of_mem_head? hTop)
      have hNumber : number slot past < 4096 :=
        Nat.lt_of_le_of_lt (number_le_taken slot past) (tracked.taken_lt hRoom)
      have hNumbered := hHandle.trans (tracked.successor_eq hGet hRoom)
      have hNone := tracked.tenant?_eq_none hGet hFree
      exact ⟨tracked.take hHead hGet hRoom hHandle hLive,
        .take proper hTop (lt_of_get? hGet) hNumbered hNumber hNone⟩
  | @give t slot e hGet hLive =>
      have hSome : tenant? slot past ≠ none := by
        rw [tracked.tenant?_eq_some hGet hLive]
        exact Option.some_ne_none _
      exact ⟨tracked.give hGet hLive, .give proper hSome⟩
  | trans _ _ ihFirst ihSecond =>
      obtain ⟨trackedMiddle, properMiddle⟩ := ihFirst tracked proper
      rw [List.filterMap_append, List.append_assoc]
      exact ihSecond trackedMiddle properMiddle

namespace Proper

theorem of_append (proper : Proper c (recent ++ older)) : Proper c older := by
  induction recent with
  | nil => exact proper
  | cons action recent ih =>
      cases proper with
      | reset hPast => exact ih hPast
      | take hPast => exact ih hPast
      | give hPast => exact ih hPast

/-- The slot came from the top of the stack, and its handle names it. -/
theorem of_take (proper : Proper c (.take slot tenant :: past)) :
    (stack c past).head? = some slot ∧ tenant.handle.slot c.size = .ok slot := by
  cases proper with
  | take _ hHead hLt hHandle hNumber =>
      have hLast : number slot past + 1 ≤ Handle.lastNumber := by
        unfold Handle.lastNumber
        omega
      refine ⟨hHead, ?_⟩
      rw [hHandle, Handle.slot_eq, Handle.slotIn_numbered hLt (Nat.succ_pos _) hLast]

/-- A slot that was taken and not given back since has the tenant it was taken for. -/
theorem tenant?_of_take (proper : Proper c (recent ++ .take slot tenant :: older))
    (hReset : .reset ∉ recent) (hKept : .give slot ∉ recent) :
    tenant? slot (recent ++ .take slot tenant :: older) = some tenant := by
  induction recent with
  | nil => exact if_pos rfl
  | cons action recent ih =>
      have hResetRest := mt (List.mem_cons_of_mem action) hReset
      have hKeptRest := mt (List.mem_cons_of_mem action) hKept
      cases proper with
      | reset hPast => exact absurd (List.mem_cons_self ..) hReset
      | @take other tenant' past hPast hHead hLt hHandle hNumber hNone =>
          have hRest := ih hPast hResetRest hKeptRest
          have hOther : other ≠ slot := by
            rintro rfl
            cases hNone.symm.trans hRest
          rw [List.cons_append, tenant?, if_neg hOther]
          exact hRest
      | @give other past hPast hSome =>
          have hOther : other ≠ slot := by
            rintro rfl
            exact hKept (List.mem_cons_self ..)
          rw [List.cons_append, tenant?, if_neg hOther]
          exact ih hPast hResetRest hKeptRest

end Proper

/-- A slot that has a tenant was taken for it, and not given back since. -/
theorem take_of_tenant? (hTenant : tenant? slot past = some tenant) :
    ∃ recent older, past = recent ++ .take slot tenant :: older ∧ .give slot ∉ recent := by
  induction past with
  | nil => cases hTenant
  | cons action past ih =>
      cases action with
      | reset => cases hTenant
      | take other tenant' =>
          rw [tenant?] at hTenant
          by_cases hSame : other = slot
          · rw [if_pos hSame] at hTenant
            cases hTenant
            rw [hSame]
            exact ⟨[], past, rfl, List.not_mem_nil⟩
          · rw [if_neg hSame] at hTenant
            obtain ⟨recent, older, hSplit, hKept⟩ := ih hTenant
            refine ⟨.take other tenant' :: recent, older, by rw [hSplit]; rfl, ?_⟩
            simpa using hKept
      | give other =>
          rw [tenant?] at hTenant
          by_cases hSame : other = slot
          · rw [if_pos hSame] at hTenant
            cases hTenant
          · rw [if_neg hSame] at hTenant
            obtain ⟨recent, older, hSplit, hKept⟩ := ih hTenant
            refine ⟨.give other :: recent, older, by rw [hSplit]; rfl, ?_⟩
            simpa [Ne.symm hSame] using hKept

/-- A tenant for whom the slot was not taken lately was there before, and was never given back. -/
theorem tenant?_of_append (hTake : ∀ tenant, .take slot tenant ∉ recent)
    (hTenant : tenant? slot (recent ++ older) = some tenant) :
    tenant? slot older = some tenant ∧ .reset ∉ recent ∧ .give slot ∉ recent := by
  induction recent with
  | nil => exact ⟨hTenant, List.not_mem_nil, List.not_mem_nil⟩
  | cons action recent ih =>
      have hRest := ih fun tenant hMem => hTake tenant (List.mem_cons_of_mem _ hMem)
      rw [List.cons_append] at hTenant
      cases action with
      | reset => cases hTenant
      | take other tenant' =>
          have hOther : other ≠ slot := by
            rintro rfl
            exact hTake tenant' (List.mem_cons_self ..)
          rw [tenant?, if_neg hOther] at hTenant
          simpa using hRest hTenant
      | give other =>
          rw [tenant?] at hTenant
          by_cases hSame : other = slot
          · rw [if_pos hSame] at hTenant
            cases hTenant
          · rw [if_neg hSame] at hTenant
            simpa [Ne.symm hSame] using hRest hTenant

/-- The handle of an environment in use names its slot. -/
theorem Tracked.slot_handle (tracked : t.Tracked past) (proper : Proper c past)
    (hGet : t.get? slot = some e) (hLive : e.status ≠ .free) : e.handle.slot c.size = .ok slot := by
  obtain ⟨recent, older, hSplit, -⟩ := take_of_tenant? (tracked.tenant?_eq_some hGet hLive)
  rw [hSplit] at proper
  exact proper.of_append.of_take.2

/-- Without a reset, the handle of every tenant ever taken has a number that was counted. -/
theorem Proper.numbered_of_mem (proper : Proper c past) (hReset : .reset ∉ past)
    (hMem : .take slot tenant ∈ past) : slot < c.size ∧
      ∃ n, tenant.handle = .numbered slot n ∧ 0 < n ∧ n ≤ number slot past ∧ n ≤ 4096 := by
  induction proper with
  | nil => cases hMem
  | reset _ _ => exact absurd (List.mem_cons_self ..) hReset
  | @take other tenant' past hPast hHead hLt hHandle hNumber hNone ih =>
      have hResetRest := mt (List.mem_cons_of_mem _) hReset
      rcases List.mem_cons.mp hMem with hHere | hEarlier
      · cases hHere
        exact ⟨hLt, number slot past + 1, hHandle, Nat.succ_pos _, Nat.le_of_eq (if_pos rfl).symm,
          hNumber⟩
      · obtain ⟨hLtSlot, n, hNumbered, hPos, hLe, hFew⟩ := ih hResetRest hEarlier
        refine ⟨hLtSlot, n, hNumbered, hPos, ?_, hFew⟩
        rw [number]
        split
        · exact Nat.le_succ_of_le hLe
        · exact hLe
  | give hPast _ ih =>
      rcases List.mem_cons.mp hMem with hHere | hEarlier
      · cases hHere
      · exact ih (mt (List.mem_cons_of_mem _) hReset) hEarlier

/-- The actions since the last reset. -/
def era (past : List Action) : List Action := past.takeWhile (· ≠ .reset)

theorem reset_not_mem_era (past : List Action) : .reset ∉ era past := by
  intro hMem
  simpa using List.all_eq_true.mp List.all_takeWhile _ hMem

theorem era_of_reset (past : List Action) : era (.reset :: past) = [] := by
  simp [era]

theorem era_append (hReset : .reset ∉ recent) (older : List Action) :
    era (recent ++ older) = recent ++ era older := by
  rw [era, List.takeWhile_append_of_pos]
  · rfl
  · intro action hMem
    have hOther : action ≠ .reset := fun hSame => hReset (hSame ▸ hMem)
    simpa using hOther

theorem era_cons {action : Action} (hOther : action ≠ .reset) (past : List Action) :
    era (action :: past) = action :: era past :=
  era_append (mt List.mem_singleton.mp hOther.symm) past

/-- What a reset forgets is the same before it as in the beginning, so it is the same without. -/
theorem eq_era {α : Type} {f : List Action → α} (hReset : ∀ past, f (.reset :: past) = f [])
    (hStep : ∀ action past past', f past = f past' → f (action :: past) = f (action :: past'))
    (past : List Action) : f (era past) = f past := by
  induction past with
  | nil => rfl
  | cons action past ih =>
      by_cases hAction : action = .reset
      · rw [hAction, era_of_reset, hReset]
      · rw [era_cons hAction]
        exact hStep action _ _ ih

theorem stack_era (past : List Action) : stack c (era past) = stack c past :=
  eq_era (fun _ => rfl) (fun action _ _ hSame => congrArg (action.restack c) hSame) past

theorem taken_era (past : List Action) : taken (era past) = taken past := by
  refine eq_era (fun _ => rfl) (fun action past past' hSame => ?_) past
  cases action <;> simp [taken, hSame]

theorem number_era (slot : Nat) (past : List Action) : number slot (era past) = number slot past := by
  refine eq_era (fun _ => rfl) (fun action past past' hSame => ?_) past
  cases action <;> simp [number, hSame]

theorem tenant?_era (slot : Nat) (past : List Action) :
    tenant? slot (era past) = tenant? slot past := by
  refine eq_era (fun _ => rfl) (fun action past past' hSame => ?_) past
  cases action <;> simp [tenant?, hSame]

theorem Tracked.era (tracked : t.Tracked past) : t.Tracked (era past) where
  sound := (stack_era past).symm ▸ tracked.sound
  room := (taken_era past).symm ▸ tracked.room
  handle_eq := fun hGet => (number_era _ past).symm ▸ tracked.handle_eq hGet
  tenant_eq := fun hGet => (tenant?_era _ past).symm ▸ tracked.tenant_eq hGet

theorem Proper.era (proper : Proper c past) : Proper c (era past) := by
  induction proper with
  | nil => exact .nil
  | reset _ _ =>
      rw [era_of_reset]
      exact .nil
  | @take slot tenant past _ hHead hLt hHandle hNumber hNone ih =>
      rw [era_cons Action.noConfusion]
      rw [← stack_era] at hHead
      rw [← number_era] at hHandle hNumber
      rw [← tenant?_era] at hNone
      exact .take ih hHead hLt hHandle hNumber hNone
  | @give slot past _ hSome ih =>
      rw [era_cons Action.noConfusion]
      rw [← tenant?_era] at hSome
      exact .give ih hSome

end Supervisor.Table
