import Supervisor.Proofs.Table.SavedFrame
import Supervisor.Proofs.Table.HandleSafety

/-! The stacks of environments. Each allocation since the last reset has laid its stack right below
the one before, so no two of them overlap. -/

namespace Supervisor.Table

open Effect

variable {c : Capacity} {build : Build} {t : Table c} {ev : Event c} {events : List (Event c)}
  {handle : Handle} {slot : Nat} {tenant : Tenant} {past : List Action}

def Event.resets (ev : Event c) : Bool :=
  match ev.command, ev.response with
  | .reset, .ok _ => true
  | _, _ => false

/-- The events after the last reset, the latest first. -/
def sinceReset (events : List (Event c)) : List (Event c) := events.takeWhile fun ev => !ev.resets

/-- The handle of the environment that was allocated, alone or by a creation. -/
def Event.issued? (ev : Event c) : Option Handle :=
  match ev.command, ev.response with
  | .allocate _ _, .ok (.issued handle) => some handle
  | .create _ _ _ _, .ok (.issued handle) => some handle
  | _, _ => none

/-- The number of allocations since the last reset. -/
def allocations (events : List (Event c)) : Nat :=
  (sinceReset events).countP fun ev => ev.issued?.isSome

/-- The stack pointer that a lookup finds in the record of the environment just allocated. -/
def Event.stackPointer? (ev : Event c) : Option UInt64 :=
  ev.issued?.bind fun handle =>
    ((lookup handle false).outcome ev.after).result.toOption.map fun e => e.frame.get .rsp

/-- The first stack pointers of all environments allocated since the last reset, the latest
first. -/
def stackPointers (events : List (Event c)) : List UInt64 :=
  (sinceReset events).filterMap Event.stackPointer?

/-- An address in the stack below a stack pointer. -/
def InStack (pointer : UInt64) (address : Nat) : Prop :=
  address < pointer.toNat ∧ pointer.toNat ≤ address + Layout.stackSize.toNat

/-- The number of stacks that fit below the first stack pointer. -/
def stackCount : Nat := Layout.stackTop.toNat / Layout.stackSize.toNat

example : stackCount = 4096 := by decide

theorem sinceReset_of_resets (hReset : ev.resets = true) : sinceReset (ev :: events) = [] := by
  rw [sinceReset, List.takeWhile_cons_of_neg (by simp [hReset])]

theorem sinceReset_of_kept (hKept : ev.resets = false) :
    sinceReset (ev :: events) = ev :: sinceReset events := by
  rw [sinceReset, List.takeWhile_cons_of_pos (by simp [hKept])]
  rfl

/-- A handle is issued by taking a slot. -/
theorem Event.actions_of_issued (hIssued : ev.issued? = some handle) :
    ∃ tenant, tenant.handle = handle ∧ ev.actions = ev.taking tenant := by
  unfold Event.issued? at hIssued
  unfold Event.actions
  split at hIssued
  · next hCommand hResponse =>
      cases hIssued
      rw [hCommand, hResponse]
      exact ⟨_, rfl, rfl⟩
  · next hCommand hResponse =>
      cases hIssued
      rw [hCommand, hResponse]
      exact ⟨_, rfl, rfl⟩
  · cases hIssued

theorem taken_append_give (slots : List Nat) : taken (slots.map .give ++ past) = taken past := by
  induction slots with
  | nil => rfl
  | cons slot slots ih => exact ih

/-- An event that issues nothing and is no reset takes no slot. -/
theorem Event.taken_of_not_issued (hKept : ev.resets = false) (hNone : ev.issued? = none) :
    taken (ev.actions ++ past) = taken past := by
  obtain ⟨t, command, response, t'⟩ := ev
  cases response with
  | error error => cases command <;> rfl
  | ok answer =>
      cases command with
      | reset => cases hKept
      | allocate parent kind =>
          cases answer with
          | issued handle => cases hNone
          | _ => rfl
      | create file kind limit resolver =>
          cases answer with
          | issued handle => cases hNone
          | _ => rfl
      | release target => exact taken_append_give _
      | destroy target =>
          cases answer with
          | destroyed outcome =>
              cases outcome with
              | dying => rfl
              | releasedCurrent => exact taken_append_give _
          | _ => rfl
      | dispatch target => exact taken_append_give _
      | _ => rfl

theorem Event.actions_of_resets (hReset : ev.resets = true) : ev.actions = [.reset] := by
  unfold Event.resets at hReset
  unfold Event.actions
  split at hReset
  · next hCommand hResponse => rw [hCommand, hResponse]
  · cases hReset

/-- The slots that a history counts as taken are the allocations. -/
theorem taken_history (events : List (Event c)) : taken (history events) = allocations events := by
  induction events with
  | nil => rfl
  | cons ev events ih =>
      rw [history, List.flatMap_cons]
      change taken (ev.actions ++ history events) = _
      cases hReset : ev.resets with
      | true =>
          rw [Event.actions_of_resets hReset, allocations, sinceReset_of_resets hReset]
          rfl
      | false =>
          rw [allocations, sinceReset_of_kept hReset, List.countP_cons]
          cases hIssued : ev.issued? with
          | none =>
              rw [Event.taken_of_not_issued hReset hIssued, ih]
              rfl
          | some handle =>
              obtain ⟨tenant, -, hActions⟩ := Event.actions_of_issued hIssued
              rw [hActions]
              exact congrArg (· + 1) ih

theorem stackPointer_initial (segments : Segments) (stackTop : UInt64) :
    (Frame.initial segments stackTop).get .rsp = stackTop := by
  rw [Frame.initial, Frame.get_set_of_ne _ Frame.Field.noConfusion, Frame.get_set_same]

/-- The frame stored for a new environment has the stack pointer that the table had ready. -/
theorem Event.stored_of_issued (build : Build) (hIssued : ev.issued? = some handle)
    (last : Option Frame) :
    ∃ frame, ev.stored build (ev.before.freeHead.getD 0) last = some frame ∧
      frame.get .rsp = ev.before.stackTop := by
  unfold Event.issued? at hIssued
  unfold Event.stored
  split at hIssued
  · next hCommand hResponse =>
      rw [hCommand, hResponse]
      exact ⟨_, if_pos rfl, stackPointer_initial _ _⟩
  · next hCommand hResponse =>
      rw [hCommand, hResponse]
      refine ⟨_, if_pos rfl, ?_⟩
      rw [Frame.get_set_of_ne _ Frame.Field.noConfusion]
      exact stackPointer_initial _ _
  · cases hIssued

/-- The handle of a slot just taken names it. -/
theorem Tracked.named?_of_taken (tracked : t.Tracked (.take slot tenant :: past))
    (proper : Proper c (.take slot tenant :: past)) :
    t.named? tenant.handle = some slot ∧
      ∃ e, t.get? slot = some e ∧ e.tenant = tenant ∧ e.status ≠ .free := by
  cases proper with
  | take _ _ hLt hHandle hNumber =>
      exact tracked.named?_of_tenant? hLt (if_pos rfl) hHandle (Nat.succ_pos _)
        (by unfold Handle.lastNumber; omega)

/-- The handle just issued names the slot at the head of the free list, and the frame stored there
is the one that the event tells of. -/
theorem Run.found_of_issued (run : Run build (ev :: events) t) (hIssued : ev.issued? = some handle) :
    let slot := ev.before.freeHead.getD 0
    ∃ e, t.named? handle = some slot ∧ t.get? slot = some e ∧
      ev.stored build slot (lastStored build slot events) = some e.frame := by
  obtain ⟨tenant, rfl, hActions⟩ := Event.actions_of_issued hIssued
  obtain ⟨tracked, proper⟩ := run.tracked
  have hHistory : history (ev :: events) =
      .take (ev.before.freeHead.getD 0) tenant :: history events := by
    rw [history, List.flatMap_cons, hActions]
    rfl
  rw [hHistory] at tracked proper
  obtain ⟨hNamed, e, hGet, -, hLive⟩ := tracked.named?_of_taken proper
  exact ⟨e, hNamed, hGet, run.keeps _ e hGet hLive⟩

/-- A new environment starts on the stack that the table had ready. -/
theorem Run.stackPointer?_of_issued (run : Run build (ev :: events) t)
    (hIssued : ev.issued? = some handle) : ev.stackPointer? = some ev.before.stackTop := by
  have hAfter : ev.after = t := by
    cases run with
    | step _ _ => rfl
  obtain ⟨e, hNamed, hGet, hKept⟩ := run.found_of_issued hIssued
  obtain ⟨frame, hStored, hPointer⟩ :=
    Event.stored_of_issued build hIssued (lastStored build _ events)
  have hFrame : e.frame = frame := Option.some.inj (hKept.symm.trans hStored)
  have hReach : t.reachable? handle false = some (ev.before.freeHead.getD 0) := by
    rw [reachable?_unchecked, hNamed]
  have hFound := (lookup_ends run.sound hReach hGet).outcome_eq
  rw [Event.stackPointer?, hIssued, hAfter, Option.bind_some, hFound, ← hPointer, ← hFrame]
  rfl

/-- A creation at the end of a run is refused, or it loads the file and gives a handle that names
a record which starts at the entry point of the file. -/
theorem Run.create_cases (run : Run build events t) (file : Buffer) (kind : Kind) (limit : UInt64)
    (resolver : Loading.Resolver) :
    (∃ writes error, (create build file kind limit resolver).Ends t writes
      (.error (.refused error)) t) ∨
    ∃ writes span handle t' slot e,
      (create build file kind limit resolver).Ends t writes (.ok handle) t' ∧
      (loading build file limit resolver).Ends () writes (.ok span) () ∧
      t'.named? handle = some slot ∧ t'.get? slot = some e ∧ e.frame.get .rip = span.entry := by
  rcases Table.create_cases run.sound build file kind limit resolver with
    hRefused | ⟨writes, span, slot, e, rest, hFree, hGet, hRoom, hLoad⟩
  · exact .inl hRefused
  · have sound := run.sound
    rw [hFree] at sound
    have hEnds : (create build file kind limit resolver).Ends t writes _ _ :=
      create_ends sound hGet hRoom hLoad
    generalize e.handle.successor c slot = handle at hEnds
    generalize t.created build slot e kind span.entry = t' at hEnds
    have hEvent : Event.of? build t (.create file kind limit resolver) =
        some ⟨t, .create file kind limit resolver, .ok (.issued handle), t'⟩ := by
      simp only [Event.of?, Command.perform, hEnds.map.outcome_eq, Except.map]
    obtain ⟨e', hNamed, hFound, hStored⟩ := (run.step hEvent).found_of_issued rfl
    refine .inr ⟨writes, span, handle, t', _, e', hEnds, hLoad, hNamed, hFound, ?_⟩
    simp only [Event.stored, if_true, Option.some.injEq] at hStored
    rw [← hStored, Frame.get_set_same, entry_of_loading hLoad]

theorem Event.stackPointer?_of_not_issued (hNone : ev.issued? = none) :
    ev.stackPointer? = none := by
  rw [Event.stackPointer?, hNone, Option.bind_none]

/-- What was laid out and what is left make up all the room for stacks. -/
theorem Run.room (run : Run build events t) :
    t.stackTop.toNat + allocations events * Layout.stackSize.toNat = Layout.stackTop.toNat := by
  rw [← taken_history, Nat.mul_comm]
  exact run.tracked.1.room

theorem Run.allocations_le (run : Run build events t) : allocations events ≤ stackCount := by
  have hRoom := run.room
  exact (Nat.le_div_iff_mul_le (by decide)).mpr (by omega)

/-- In the order of the allocations, each stack pointer lies one stack below the one before. -/
theorem Run.stackPointers_eq (run : Run build events t) :
    (stackPointers events).reverse.map UInt64.toNat =
      (List.range (allocations events)).map fun k =>
        Layout.stackTop.toNat - k * Layout.stackSize.toNat := by
  induction run with
  | start => rfl
  | @step events t command ev hRun hStep ih =>
      have hBefore := Event.before_of? hStep
      cases hReset : ev.resets with
      | true => simp [stackPointers, allocations, sinceReset_of_resets hReset]
      | false =>
          rw [stackPointers, allocations, sinceReset_of_kept hReset, List.countP_cons]
          cases hIssued : ev.issued? with
          | none =>
              rw [List.filterMap_cons_none (Event.stackPointer?_of_not_issued hIssued)]
              exact ih
          | some handle =>
              have hPointer := (hRun.step hStep).stackPointer?_of_issued hIssued
              have hRoom := hRun.room
              have hTop : t.stackTop.toNat =
                  Layout.stackTop.toNat - allocations events * Layout.stackSize.toNat := by
                omega
              rw [List.filterMap_cons_some hPointer, List.reverse_cons, List.map_append, hBefore]
              change (stackPointers events).reverse.map _ ++ [t.stackTop.toNat] =
                (List.range (allocations events + 1)).map _
              rw [ih, hTop, List.range_succ, List.map_append]
              rfl

/-- A stack below the first one at a whole number of stacks has room for itself. -/
theorem stack_fits {count k : Nat} (hCount : count ≤ stackCount) (hLt : k < count) :
    (k + 1) * Layout.stackSize.toNat ≤ Layout.stackTop.toNat :=
  (Nat.le_div_iff_mul_le (by decide)).mp (Nat.le_trans hLt hCount)

theorem Run.stack_within (run : Run build events t) {pointer : UInt64}
    (hMem : pointer ∈ stackPointers events) :
    Layout.stackSize.toNat ≤ pointer.toNat ∧ pointer.toNat ≤ Layout.stackTop.toNat := by
  have hMapped : pointer.toNat ∈ (stackPointers events).reverse.map UInt64.toNat :=
    List.mem_map_of_mem (List.mem_reverse.mpr hMem)
  rw [run.stackPointers_eq] at hMapped
  obtain ⟨k, hRange, hPointer⟩ := List.mem_map.mp hMapped
  have hFits := stack_fits run.allocations_le (List.mem_range.mp hRange)
  rw [Nat.succ_mul] at hFits
  omega

/-- No address lies in two stacks. -/
theorem Run.stacks_apart (run : Run build events t) :
    (stackPointers events).Pairwise fun later earlier =>
      ∀ address, InStack later address → ¬ InStack earlier address := by
  have hPairs : ((stackPointers events).reverse.map UInt64.toNat).Pairwise fun earlier later =>
      later + Layout.stackSize.toNat ≤ earlier := by
    rw [run.stackPointers_eq, List.pairwise_map]
    apply List.pairwise_lt_range.imp_of_mem
    intro k later _ hLater hLt
    have hFits := stack_fits run.allocations_le (List.mem_range.mp hLater)
    have hStep := Nat.mul_le_mul_right Layout.stackSize.toNat (Nat.succ_le_of_lt hLt)
    rw [Nat.succ_mul] at hFits hStep
    omega
  rw [List.pairwise_map, List.pairwise_reverse] at hPairs
  apply hPairs.imp
  intro later earlier hBelow address hLater hEarlier
  unfold InStack at hLater hEarlier
  omega

/-- There is room for a stack exactly as long as not all stacks are taken. -/
theorem Run.room_iff (run : Run build events t) :
    Layout.stackSize ≤ t.stackTop ↔ allocations events < stackCount := by
  have hRoom := run.room
  have hStacks : stackCount * Layout.stackSize.toNat = Layout.stackTop.toNat := by decide
  have hLe := run.allocations_le
  rw [UInt64.le_iff_toNat_le]
  constructor
  · intro hFits
    rcases Nat.lt_or_eq_of_le hLe with hLt | hEq
    · exact hLt
    · have hSize : 0 < Layout.stackSize.toNat := by decide
      rw [hEq] at hRoom
      omega
  · intro hLt
    have hStep := Nat.mul_le_mul_right Layout.stackSize.toNat (Nat.succ_le_of_lt hLt)
    rw [Nat.succ_mul] at hStep
    omega

/-- What an allocation gives at the end of a run: it is refused for want of a slot or else for want
of a stack, and given a handle where there are both. -/
theorem Run.allocate_result (run : Run build events t) (parent : Handle) (kind : Kind) :
    let result := ((allocate build parent kind).outcome t).result
    (¬ (∃ slot e, t.get? slot = some e ∧ e.status = .free) ∧
        result = .error (.refused .outOfEnvironments)) ∨
      ((∃ slot e, t.get? slot = some e ∧ e.status = .free) ∧ allocations events = stackCount ∧
        result = .error (.refused .outOfMemory)) ∨
      ((∃ slot e, t.get? slot = some e ∧ e.status = .free) ∧ allocations events < stackCount ∧
        ∃ handle, result = .ok handle) := by
  have sound := run.sound
  generalize stack c (history events) = free at sound
  cases free with
  | nil =>
      refine .inl ⟨?_, ?_⟩
      · rintro ⟨slot, e, hGet, hFree⟩
        exact List.not_mem_nil ((sound.mem_iff hGet).mpr hFree)
      · rw [(allocate_full sound.linked.head_eq).outcome_eq]
  | cons slot rest =>
      obtain ⟨e, hGet⟩ := sound.linked.exists_get? slot (List.mem_cons_self ..)
      have hFree : ∃ slot e, t.get? slot = some e ∧ e.status = .free :=
        ⟨slot, e, hGet, (sound.mem_iff hGet).mp (List.mem_cons_self ..)⟩
      by_cases hRoom : Layout.stackSize ≤ t.stackTop
      · refine .inr (.inr ⟨hFree, run.room_iff.mp hRoom, e.handle.successor c slot, ?_⟩)
        rw [(allocate_ends sound hGet hRoom).outcome_eq]
      · have hAll : allocations events = stackCount :=
          Nat.le_antisymm run.allocations_le (Nat.le_of_not_lt (mt run.room_iff.mpr hRoom))
        refine .inr (.inl ⟨hFree, hAll, ?_⟩)
        rw [(allocate_exhausted sound.linked.head_eq hRoom).outcome_eq]

/-- The environments allocated since the last reset got their stack pointers in steps of one stack
down from the top, so no two stacks share an address. An allocation is refused exactly if no slot is
free or all stacks are laid out. -/
theorem stacks_never_shared (run : Run build events t) :
    (stackPointers events).reverse.map UInt64.toNat =
        (List.range (allocations events)).map
          (fun k => Layout.stackTop.toNat - k * Layout.stackSize.toNat) ∧
      (stackPointers events).Pairwise (fun later earlier =>
        ∀ address, InStack later address → ¬ InStack earlier address) ∧
      (∀ pointer ∈ stackPointers events,
        Layout.stackSize.toNat ≤ pointer.toNat ∧ pointer.toNat ≤ Layout.stackTop.toNat) ∧
      allocations events ≤ stackCount ∧
      t.stackTop.toNat + allocations events * Layout.stackSize.toNat = Layout.stackTop.toNat ∧
      ∀ parent kind,
        let result := ((allocate build parent kind).outcome t).result
        let free := ∃ slot e, t.get? slot = some e ∧ e.status = .free
        (result = .error (.refused .outOfEnvironments) ↔ ¬ free) ∧
          (result = .error (.refused .outOfMemory) ↔
            free ∧ allocations events = stackCount) ∧
          ((∃ handle, result = .ok handle) ↔ free ∧ allocations events < stackCount) := by
  refine ⟨run.stackPointers_eq, run.stacks_apart, fun _ => run.stack_within, run.allocations_le,
    run.room, ?_⟩
  intro parent kind result free
  rcases run.allocate_result parent kind with
    ⟨hNone, hResult⟩ | ⟨hFree, hAll, hResult⟩ | ⟨hFree, hRoom, handle, hResult⟩
  · have hNot : ¬ free := hNone
    simp [result, hResult, hNot]
  · have hSome : free := hFree
    simp [result, hResult, hSome, hAll]
  · have hSome : free := hFree
    simp [result, hResult, hSome, hRoom, Nat.ne_of_lt hRoom]

theorem stacks_never_shared_full :
    Run .bare [Sample.fourth, Sample.third, Sample.second, Sample.first] Sample.fourth.after ∧
      allocations [Sample.fourth, Sample.third, Sample.second, Sample.first] = 3 ∧
      (stackPointers [Sample.fourth, Sample.third, Sample.second, Sample.first]).map
        UInt64.toNat = [0x1ffc000, 0x1ffe000, 0x2000000] ∧
      ((allocate .bare .reserved .user).outcome Sample.fourth.after).result =
        .error (.refused .outOfEnvironments) := by
  obtain ⟨hPointers, -, -, -, -, hAllocate⟩ := stacks_never_shared Sample.run_four
  have hCount :
      allocations [Sample.fourth, Sample.third, Sample.second, Sample.first] = 3 := by
    decide +kernel
  rw [hCount] at hPointers
  refine ⟨Sample.run_four, hCount, ?_, (hAllocate .reserved .user).1.mpr ?_⟩
  · rw [List.map_reverse, List.reverse_eq_iff] at hPointers
    rw [hPointers]
    decide
  · rintro ⟨slot, e, hGet, hFree⟩
    have hUsed : ∀ slot < 2, (Sample.fourth.after.get? slot).map (·.status) ≠ some .free := by
      decide +kernel
    exact hUsed slot (lt_of_get? hGet) (by rw [hGet]; exact congrArg some hFree)

end Supervisor.Table
