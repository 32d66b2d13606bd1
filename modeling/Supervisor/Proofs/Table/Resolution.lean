import Supervisor.Proofs.Handle.Numbering
import Supervisor.Proofs.Table.FreeList
import Supervisor.Table.Lookup

/-! What handles name in a sound table. One that names nothing is refused and never a panic. -/

namespace Supervisor.Table

open Effect

variable {c : Capacity} {t : Table c} {slot : Nat} {e : Environment} {free : List Nat} {h : Handle}

/-- The slot that a handle names: the current one, or the one in its low bits if that is in use and
holds this very handle. -/
def named? (t : Table c) (h : Handle) : Option Nat :=
  if h.isReserved then t.current
  else (t.get? (h.slotIn c)).bind fun e =>
    if e.status ≠ .free ∧ e.handle = h then some (h.slotIn c) else none

/-- Whether the current environment may reach a slot: its own, or one that holds a child of it. -/
def permits (t : Table c) (slot : Nat) : Bool :=
  (t.currentHandle?.bind fun caller =>
    (t.get? slot).map fun e => decide (e.handle = caller ∨ e.parent = caller)).getD false

/-- The slot that a handle names, if the current environment may reach it where that is checked. -/
def reachable? (t : Table c) (h : Handle) (checked : Bool) : Option Nat :=
  (t.named? h).filter fun slot => !checked || t.permits slot

theorem named?_of_reserved (hReserved : h.isReserved) : t.named? h = t.current :=
  if_pos hReserved

/-- Any other handle names a slot exactly if it is stored there and the slot is in use. -/
theorem named?_eq_some_iff (hReserved : ¬ h.isReserved) : t.named? h = some slot ↔
    slot = h.slotIn c ∧ ∃ e, t.get? slot = some e ∧ e.status ≠ .free ∧ e.handle = h := by
  rw [named?, if_neg hReserved, Option.bind_eq_some_iff]
  constructor
  · rintro ⟨e, hGet, hIf⟩
    simp only [Option.ite_none_right_eq_some, Option.some.injEq] at hIf
    obtain ⟨⟨hLive, hHandle⟩, rfl⟩ := hIf
    exact ⟨rfl, e, hGet, hLive, hHandle⟩
  · rintro ⟨rfl, e, hGet, hLive, hHandle⟩
    exact ⟨e, hGet, if_pos ⟨hLive, hHandle⟩⟩

/-- What is named is in use. -/
theorem Sound.named_live (sound : t.Sound free) (hNamed : t.named? h = some slot) :
    ∃ e, t.get? slot = some e ∧ e.status ≠ .free := by
  by_cases hReserved : h.isReserved
  · exact sound.current_live ((named?_of_reserved hReserved).symm.trans hNamed)
  · obtain ⟨_, e, hGet, hLive, _⟩ := (named?_eq_some_iff hReserved).mp hNamed
    exact ⟨e, hGet, hLive⟩

theorem named?_of_reachable? {checked : Bool} (hReach : t.reachable? h checked = some slot) :
    t.named? h = some slot :=
  (Option.filter_eq_some_iff.mp hReach).1

theorem reachable?_of_named? {checked : Bool} (hNamed : t.named? h = some slot) :
    t.reachable? h checked = if !checked || t.permits slot then some slot else none := by
  rw [reachable?, hNamed, Option.filter_some]

@[simp] theorem reachable?_unchecked : t.reachable? h false = t.named? h := by
  cases hNamed : t.named? h with
  | none => rw [reachable?, hNamed, Option.filter_none]
  | some slot => exact reachable?_of_named? hNamed

/-- Finding the slot of a handle leaves no trace. -/
theorem resolveSlot_reads (t : Table c) (h : Handle) :
    (resolveSlot h).Reads t (Stop.ofOption .badEnvironment (t.named? h)) := by
  unfold resolveSlot
  by_cases hReserved : h.isReserved
  · rw [if_pos hReserved, named?_of_reserved hReserved]
    apply (reads_state t).andThen
    cases t.current with
    | none => exact reads_refuse _ t
    | some slot => exact reads_pure slot t
  · rw [if_neg hReserved, h.slot_eq]
    obtain ⟨e, hGet⟩ := t.exists_get? (h.slotIn_lt c)
    refine (reads_orFault (.ok (h.slotIn c)) t).andThen ((slotAt_reads hGet).andThen ?_)
    simp only [named?, if_neg hReserved, hGet, Option.bind_some]
    by_cases hHolds : e.status ≠ .free ∧ e.handle = h
    · rw [if_pos hHolds, if_neg (by simpa [Environment.isFree] using hHolds)]
      exact reads_pure _ t
    · have hFails : e.isFree = true ∨ e.handle ≠ h := by
        simpa [Environment.isFree, Classical.or_iff_not_imp_left] using hHolds
      rw [if_neg hHolds, if_pos hFails]
      exact reads_refuse _ t

theorem checkPermission_ends (hCurrent : t.HasCurrent) (hGet : t.get? slot = some e) :
    (checkPermission slot).Ends t [] (Stop.require (t.permits slot) .badEnvironment) t := by
  apply (currentHandle_ends hCurrent).andThen
  cases hCaller : t.currentHandle? with
  | none => simpa [permits, hCaller, Stop.require] using ends_refuse _ t
  | some caller =>
      apply (slotAt_ends hGet).andThen
      by_cases hFamily : e.handle = caller ∨ e.parent = caller
      · rw [if_neg (by simpa [Classical.or_iff_not_imp_left] using hFamily)]
        simpa [permits, hCaller, hGet, hFamily, Stop.require] using Ends.pure () t
      · rw [if_pos (by simpa using hFamily)]
        simpa [permits, hCaller, hGet, hFamily, Stop.require] using ends_refuse _ t

theorem resolve_ends (sound : t.Sound free) (h : Handle) (checked : Bool) :
    (resolve h checked).Ends t [] (Stop.ofOption .badEnvironment (t.reachable? h checked)) t := by
  have hSlot := (resolveSlot_reads t h).ends
  cases hNamed : t.named? h with
  | none =>
      rw [hNamed] at hSlot
      rw [reachable?, hNamed, Option.filter_none]
      exact hSlot.bind_stop
  | some slot =>
      rw [hNamed] at hSlot
      rw [reachable?_of_named? hNamed]
      obtain ⟨e, hGet, _⟩ := sound.named_live hNamed
      have hCheck := checkPermission_ends sound.hasCurrent hGet
      apply hSlot.andThen
      cases checked with
      | false => exact Ends.pure slot t
      | true =>
          cases hPermits : t.permits slot with
          | false =>
              rw [hPermits] at hCheck
              exact hCheck.bind_stop
          | true =>
              rw [hPermits] at hCheck
              exact hCheck.andThen (Ends.pure slot t)

/-- A handle that is not found stops whatever was to be done with its slot. -/
theorem resolve_stops {α : Type} (sound : t.Sound free) {checked : Bool}
    (hReach : t.reachable? h checked = none) (next : Nat → Op c α) :
    (resolve h checked >>= next).Ends t [] (.error (.refused .badEnvironment)) t := by
  have hResolve := resolve_ends sound h checked
  rw [hReach] at hResolve
  exact hResolve.bind_stop

/-- A handle that is found hands its slot on. -/
theorem resolve_finds {α : Type} (sound : t.Sound free) {checked : Bool}
    (hReach : t.reachable? h checked = some slot) {next : Nat → Op c α} {writes : List Write}
    {r : Except (Stop Error) α} {t' : Table c} (hNext : (next slot).Ends t writes r t') :
    (resolve h checked >>= next).Ends t writes r t' := by
  have hResolve := resolve_ends sound h checked
  rw [hReach] at hResolve
  exact hResolve.andThen hNext

/-- A handle is resolved to the slot that it names, if it names one. -/
theorem resolve_eq_ok_iff (sound : t.Sound free) :
    ((resolve h false).outcome t).result = .ok slot ↔ t.named? h = some slot := by
  rw [(resolve_ends sound h false).outcome_eq, reachable?_unchecked]
  cases t.named? h <;> simp [Stop.ofOption]

theorem lookup_ends (sound : t.Sound free) {checked : Bool}
    (hReach : t.reachable? h checked = some slot) (hGet : t.get? slot = some e) :
    (lookup h checked).Ends t [] (.ok e) t :=
  resolve_finds sound hReach (slotAt_ends hGet)

/-- What is found is the record of the slot that the handle reaches. -/
theorem lookup_eq_ok_iff (sound : t.Sound free) {checked : Bool} :
    ((lookup h checked).outcome t).result = .ok e ↔
      ∃ slot, t.reachable? h checked = some slot ∧ t.get? slot = some e := by
  cases hReach : t.reachable? h checked with
  | none =>
      have hEnds : (lookup h checked).Ends t [] _ t := resolve_stops sound hReach _
      simp [hEnds.outcome_eq]
  | some slot =>
      obtain ⟨found, hGet, -⟩ := sound.named_live (named?_of_reachable? hReach)
      simp [(lookup_ends sound hReach hGet).outcome_eq, hGet]

/-- A new status is either refused with a panic or stored. It is one step away from the old, and
never that of a free slot. -/
theorem setStatusOf_ends (hGet : t.get? slot = some e) (status : Status) :
    (∃ cause, (setStatusOf slot status).Ends t [] (.error (.panicked cause)) t) ∨
      (status ≠ .free ∧ e.status.allows status) ∧
        (setStatusOf slot status).Ends t [] (.ok ()) (t.put slot { e with status }) := by
  unfold setStatusOf
  by_cases hFree : status = .free
  · rw [if_pos hFree]
    exact .inl ⟨_, ends_panic _ t⟩
  · rw [if_neg hFree]
    by_cases hAllows : e.status.allows status
    · exact .inr ⟨⟨hFree, hAllows⟩, moveTo_ends hGet hAllows⟩
    · exact .inl ⟨_, moveTo_ends_illegal hGet hAllows⟩

theorem editFrame_ends (sound : t.Sound free) {checked : Bool} (edit : Frame → Frame)
    (hReach : t.reachable? h checked = some slot) (hGet : t.get? slot = some e) :
    (editFrame h checked edit).Ends t [] (.ok ())
      (t.put slot { e with frame := edit e.frame }) :=
  resolve_finds sound hReach (changeSlot_ends hGet _)

theorem editCurrentFrame_ends (edit : Frame → Frame) (hCurrent : t.current = some slot)
    (hGet : t.get? slot = some e) :
    (editCurrentFrame edit).Ends t [] (.ok true)
      (t.put slot { e with frame := edit e.frame }) := by
  apply (ends_state t).andThen
  rw [hCurrent]
  exact (changeSlot_ends hGet _).andThen (Ends.pure true _)

end Supervisor.Table
