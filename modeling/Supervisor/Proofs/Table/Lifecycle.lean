import Supervisor.Proofs.Table.Resolution
import Supervisor.Table.Allocation
import Supervisor.Table.Dispatch

/-! What allocation, release, destruction and dispatch do to a sound table. Each statement gives the
result and the whole table afterwards. -/

namespace Supervisor

theorem Status.allows_free {status : Status} (hLive : status ≠ .free) : status.allows .free := by
  cases status with
  | free => exact absurd rfl hLive
  | _ => rfl

theorem Status.allows_dying {status : Status} (hLive : status ≠ .free) (hNew : status ≠ .dying) :
    status.allows .dying := by
  cases status with
  | free => exact absurd rfl hLive
  | dying => exact absurd rfl hNew
  | _ => rfl

theorem Status.allows_running {status : Status} : status.allows .running ↔ status = .runnable := by
  cases status <;> simp [allows]

/-- Dying is left for free only. -/
theorem Status.dying_of_step {status status' : Status} (hDying : status = .dying)
    (hStep : status ≠ status' → status.allows status') (hLive : status' ≠ .free) :
    status' = .dying := by
  subst hDying
  by_cases hSame : status' = .dying
  · exact hSame
  · exact absurd (allows_from_dying.mp (hStep (Ne.symm hSame))) hLive

/-- The handle of the environment that follows another in its slot. -/
def Handle.successor (c : Capacity) (slot : Nat) (last : Handle) : Handle :=
  match last.nextGeneration c.size with
  | .ok generation => encode generation slot
  | .error _ => reserved

theorem Handle.exists_nextGeneration (c : Capacity) (last : Handle) :
    ∃ generation, last.nextGeneration c.size = .ok generation :=
  (nextGeneration_proper c last).imp fun _ proper => proper.1

theorem Handle.slotIn_successor {c : Capacity} {slot : Nat} (last : Handle)
    (hSlot : slot < c.size) : (last.successor c slot).slotIn c = slot := by
  obtain ⟨generation, hNext⟩ := exists_nextGeneration c last
  rw [successor, hNext]
  exact slotIn_next hNext hSlot

theorem Handle.successor_numbered {c : Capacity} {slot number : Nat} (hSlot : slot < c.size)
    (hLast : number < lastNumber) :
    (numbered slot number).successor c slot = numbered slot (number + 1) := by
  rw [successor, nextGeneration_numbered hSlot hLast]
  exact encode_numbered (Nat.lt_of_lt_of_le hSlot c.size_le_step)

/-- The record of an environment that has just been allocated. -/
def Environment.fresh (build : Build) (stackTop : UInt64) (handle parent : Handle) (kind : Kind) :
    Environment where
  frame := .initial (.initial build kind) stackTop
  link := none
  handle := handle
  parent := parent
  kind := kind
  status := .runnable
  runs := 0

namespace Table

open Effect

variable {c : Capacity} {t : Table c} {slot : Nat} {e : Environment} {free : List Nat} {h : Handle}
  {build : Build} {parent : Handle} {kind : Kind}

theorem allocate_full (hHead : t.freeHead = none) :
    (allocate build parent kind).Ends t [] (.error (.refused .outOfEnvironments)) t := by
  apply (ends_state t).andThen
  rw [hHead]
  exact ends_refuse _ t

theorem allocate_exhausted (hHead : t.freeHead = some slot)
    (hFull : ¬ Layout.stackSize ≤ t.stackTop) :
    (allocate build parent kind).Ends t [] (.error (.refused .outOfMemory)) t := by
  apply (ends_state t).andThen
  rw [hHead]
  simp only [nextStackTop?, if_neg hFull]
  exact ends_refuse _ t

/-- The table after the head of the free list was given to a new environment. -/
def allocated (build : Build) (t : Table c) (slot : Nat) (old : Environment) (parent : Handle)
    (kind : Kind) : Table c :=
  t.granted slot old.link
    (.fresh build t.stackTop (old.handle.successor c slot) parent kind)

theorem allocate_ends (sound : t.Sound (slot :: free)) (hGet : t.get? slot = some e)
    (hRoom : Layout.stackSize ≤ t.stackTop) :
    (allocate build parent kind).Ends t [] (.ok (e.handle.successor c slot))
      (t.allocated build slot e parent kind) := by
  have hFree : e.status = .free := (sound.mem_iff hGet).mp (List.mem_cons_self ..)
  have hAfter : (t.allocated build slot e parent kind).Sound free :=
    sound.granted hGet (by simp [Environment.fresh])
  obtain ⟨generation, hGeneration⟩ := e.handle.exists_nextGeneration c
  have hHandle : Handle.encode generation slot = e.handle.successor c slot := by
    rw [Handle.successor, hGeneration]
  apply (ends_state t).andThen
  rw [sound.linked.head_eq]
  simp only [List.head?_cons, nextStackTop?, if_pos hRoom]
  apply (slotAt_ends hGet).andThen
  rw [hGeneration, hFree]
  apply (ends_orFault (.ok generation) t).andThen
  apply (ends_orPanic (.ok Status.runnable) t).andThen
  rw [hHandle]
  refine (setSlot_ends t slot _).andThen ((ends_update _ _).andThen ?_)
  exact (logAs_ends hAfter.hasCurrent _).andThen (Ends.pure _ _)

theorem releaseSlot_ends (sound : t.Sound free) (hGet : t.get? slot = some e)
    (hLive : e.status ≠ .free) : (releaseSlot slot).Ends t [] (.ok ()) (t.freed slot e) := by
  refine (slotAt_ends hGet).andThen ((logAs_ends sound.hasCurrent _).andThen ?_)
  refine (moveTo_ends hGet (Status.allows_free hLive)).andThen ((ends_state _).andThen ?_)
  refine (changeSlot_ends (get?_put_same hGet) _).andThen ?_
  rw [put_put]
  exact ends_update _ _

theorem release_ends (sound : t.Sound free) (hNamed : t.named? h = some slot)
    (hGet : t.get? slot = some e) (hLive : e.status ≠ .free) :
    (release h).Ends t [] (.ok ()) (t.freed slot e) :=
  resolve_finds sound (by simpa using hNamed) (releaseSlot_ends sound hGet hLive)

theorem put_self (hGet : t.get? slot = some e) : t.put slot e = t := by
  obtain ⟨hLt, hEq⟩ := Vector.getElem?_eq_some_iff.mp hGet
  have hSlots : t.slots.setIfInBounds slot e = t.slots := by
    rw [← hEq]
    ext i hi
    by_cases hSame : slot = i
    · subst hSame
      simp
    · simp [hSame]
  rw [put, hSlots]

theorem markDying_ends (hGet : t.get? slot = some e) (hLive : e.status ≠ .free) :
    (markDying slot).Ends t [] (.ok ()) (t.put slot { e with status := .dying }) := by
  apply (slotAt_ends hGet).andThen
  by_cases hDying : e.status = .dying
  · rw [if_pos hDying, ← hDying, put_self hGet]
    exact Ends.pure () t
  · rw [if_neg hDying]
    exact moveTo_ends hGet (Status.allows_dying hLive hDying)

theorem freed_put {e' : Environment} : (t.put slot e').freed slot e = t.freed slot e := by
  simp only [freed, put_put]
  rfl

theorem destroy_ends_marked (sound : t.Sound free) (hNamed : t.named? h = some slot)
    (hGet : t.get? slot = some e) (hLive : e.status ≠ .free) (hOther : t.current ≠ some slot) :
    (destroy h).Ends t [] (.ok .dying) (t.put slot { e with status := .dying }) := by
  apply resolve_finds sound (by simpa using hNamed)
  refine (markDying_ends hGet hLive).andThen ((ends_state _).andThen ?_)
  rw [put_current, if_neg hOther]
  exact Ends.pure _ _

theorem destroy_ends_current (sound : t.Sound free) (hNamed : t.named? h = some slot)
    (hGet : t.get? slot = some e) (hLive : e.status ≠ .free) (hCurrent : t.current = some slot) :
    (destroy h).Ends t [] (.ok .releasedCurrent) (t.freed slot e) := by
  have hDying : (t.put slot { e with status := .dying }).Sound free :=
    sound.put hGet hLive (by simp)
  apply resolve_finds sound (by simpa using hNamed)
  refine (markDying_ends hGet hLive).andThen ((ends_state _).andThen ?_)
  rw [put_current, if_pos hCurrent]
  have hRelease := releaseSlot_ends hDying (get?_put_same hGet) (by simp)
  rw [freed_put] at hRelease
  exact hRelease.andThen (Ends.pure _ _)

/-- A release is refused, or the slot that the target names is given back. -/
theorem release_cases (sound : t.Sound free) (target : Handle) :
    t.named? target = none ∧
        (release target).Ends t [] (.error (.refused .badEnvironment)) t ∨
      ∃ slot e, t.named? target = some slot ∧ t.get? slot = some e ∧ e.status ≠ .free ∧
        (release target).Ends t [] (.ok ()) (t.freed slot e) := by
  cases hNamed : t.named? target with
  | none => exact .inl ⟨rfl, resolve_stops sound (by simpa using hNamed) _⟩
  | some slot =>
      obtain ⟨e, hGet, hLive⟩ := sound.named_live hNamed
      exact .inr ⟨slot, e, rfl, hGet, hLive, release_ends sound hNamed hGet hLive⟩

/-- A destruction is refused, or what the target names is marked as dying, or it is current and its
slot is given back. -/
theorem destroy_cases (sound : t.Sound free) (target : Handle) :
    t.named? target = none ∧
        (destroy target).Ends t [] (.error (.refused .badEnvironment)) t ∨
      ∃ slot e, t.named? target = some slot ∧ t.get? slot = some e ∧ e.status ≠ .free ∧
        (t.current ≠ some slot ∧
            (destroy target).Ends t [] (.ok .dying) (t.put slot { e with status := .dying }) ∨
          t.current = some slot ∧
            (destroy target).Ends t [] (.ok .releasedCurrent) (t.freed slot e)) := by
  cases hNamed : t.named? target with
  | none => exact .inl ⟨rfl, resolve_stops sound (by simpa using hNamed) _⟩
  | some slot =>
      obtain ⟨e, hGet, hLive⟩ := sound.named_live hNamed
      refine .inr ⟨slot, e, rfl, hGet, hLive, ?_⟩
      by_cases hCurrent : t.current = some slot
      · exact .inr ⟨hCurrent, destroy_ends_current sound hNamed hGet hLive hCurrent⟩
      · exact .inl ⟨hCurrent, destroy_ends_marked sound hNamed hGet hLive hCurrent⟩

/-- Whether a slot holds a dying environment. -/
def isDying (t : Table c) (slot : Nat) : Bool := (t.get? slot).any fun e => e.status == .dying

/-- The current slot, if its environment is dying. -/
def reaped? (t : Table c) : Option Nat := t.current.filter t.isDying

/-- The table when the processor is taken from the current environment: a dying one is released and
a running one can run again later. -/
def preempted (t : Table c) : Table c :=
  match t.current.bind fun slot => (t.get? slot).map fun e => (slot, e) with
  | none => t
  | some (slot, e) =>
    if e.status = .dying then t.freed slot e
    else if e.status = .running then t.put slot { e with status := .runnable }
    else t

theorem preempt_ends (sound : t.Sound free) : preempt.Ends t [] (.ok t.reaped?) t.preempted := by
  apply (ends_state t).andThen
  cases hSlot : t.current with
  | none =>
      simp only [reaped?, preempted, hSlot]
      exact Ends.pure none t
  | some slot =>
      obtain ⟨e, hGet, hLive⟩ := sound.current_live hSlot
      apply (slotAt_ends hGet).andThen
      simp only [reaped?, isDying, preempted, hSlot, hGet, Option.filter_some, Option.any_some,
        Option.bind_some, Option.map_some]
      cases hStatus : e.status with
      | dying => exact (releaseSlot_ends sound hGet hLive).andThen (Ends.pure _ _)
      | running => exact (moveTo_ends hGet (by rw [hStatus]; rfl)).andThen (Ends.pure _ _)
      | free => exact Ends.pure _ _
      | runnable => exact Ends.pure _ _
      | blocked => exact Ends.pure _ _

theorem enterSlot_ends (hGet : t.get? slot = some e) (hStatus : e.status = .runnable) :
    (enterSlot slot).Ends t [] (.ok (.enter e.frame)) (t.entered slot e) := by
  refine (slotAt_ends hGet).andThen ((ends_log _ _ _).andThen ((ends_update _ _).andThen ?_))
  have hMove := moveTo_ends (t := { t with current := some slot }) hGet
    (Status.allows_running.mpr hStatus)
  apply hMove.andThen
  refine (changeSlot_ends (get?_put_same (t := { t with current := some slot }) hGet) _).andThen ?_
  rw [put_put]
  exact Ends.pure _ _

/-- An environment that is not runnable cannot be entered. -/
theorem enterSlot_panics (hGet : t.get? slot = some e) (hStatus : e.status ≠ .runnable) :
    (enterSlot slot).Ends t [] (.error (.panicked (.illegalTransition e.status .running)))
      { t with current := some slot } := by
  refine (slotAt_ends hGet).andThen ((ends_log _ _ _).andThen ((ends_update _ _).andThen ?_))
  have hMove := moveTo_ends_illegal (t := { t with current := some slot }) hGet
    (mt Status.allows_running.mp hStatus)
  exact hMove.bind_stop

theorem dispatch_refuses (sound : t.Sound free) (hNamed : t.named? h = none) :
    (dispatch h).Ends t [] (.error (.refused .badEnvironment)) t :=
  resolve_stops sound (by simpa using hNamed) _

/-- The target was current and dying. -/
theorem dispatch_reaps_current (sound : t.Sound free) (hNamed : t.named? h = some slot)
    (hReaped : t.reaped? = some slot) : (dispatch h).Ends t [] (.ok .yield) t.preempted := by
  refine resolve_finds sound (by simpa using hNamed) ((preempt_ends sound).andThen ?_)
  rw [if_pos hReaped]
  exact Ends.pure _ _

theorem dispatch_reaps_target {rest : List Nat} (sound : t.Sound free)
    (soundAfter : t.preempted.Sound rest) (hNamed : t.named? h = some slot)
    (hReaped : t.reaped? ≠ some slot) (hGet : t.preempted.get? slot = some e)
    (hStatus : e.status = .dying) :
    (dispatch h).Ends t [] (.ok .yield) (t.preempted.freed slot e) := by
  refine resolve_finds sound (by simpa using hNamed) ((preempt_ends sound).andThen ?_)
  rw [if_neg hReaped]
  apply (slotAt_ends hGet).andThen
  rw [if_pos hStatus]
  exact (releaseSlot_ends soundAfter hGet (by simp [hStatus])).andThen (Ends.pure _ _)

theorem dispatch_enters (sound : t.Sound free) (hNamed : t.named? h = some slot)
    (hReaped : t.reaped? ≠ some slot) (hGet : t.preempted.get? slot = some e)
    (hStatus : e.status = .runnable) :
    (dispatch h).Ends t [] (.ok (.enter e.frame)) (t.preempted.entered slot e) := by
  refine resolve_finds sound (by simpa using hNamed) ((preempt_ends sound).andThen ?_)
  rw [if_neg hReaped]
  apply (slotAt_ends hGet).andThen
  rw [if_neg (by simp [hStatus])]
  exact enterSlot_ends hGet hStatus

theorem dispatch_panics (sound : t.Sound free) (hNamed : t.named? h = some slot)
    (hReaped : t.reaped? ≠ some slot) (hGet : t.preempted.get? slot = some e)
    (hDying : e.status ≠ .dying) (hRunnable : e.status ≠ .runnable) :
    (dispatch h).Ends t [] (.error (.panicked (.illegalTransition e.status .running)))
      { t.preempted with current := some slot } := by
  refine resolve_finds sound (by simpa using hNamed) ((preempt_ends sound).andThen ?_)
  rw [if_neg hReaped]
  apply (slotAt_ends hGet).andThen
  rw [if_neg hDying]
  exact enterSlot_panics hGet hRunnable

end Table

end Supervisor
