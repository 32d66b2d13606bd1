import Supervisor.Proofs.Table.Change
import Supervisor.Table.Command

/-! What a dispatch does to the slots. Only the current one and the target's can change hands. -/

namespace Supervisor.Table

open Effect

variable {c : Capacity} {t : Table c} {slot : Nat} {e : Environment} {free : List Nat}
  {target : Handle}

/-- The slots that a dispatch releases: that of the target if it is dying and not current, after
that of the current environment if that is dying. -/
def reapedBy (t : Table c) (target : Handle) : List Nat :=
  ((t.named? target).filter fun slot => decide (t.current ≠ some slot) && t.isDying slot).toList ++
    t.reaped?.toList

/-- The slot that loses the processor in a dispatch but keeps its environment. -/
def demoted? (t : Table c) : Option Nat :=
  t.current.filter fun slot => (t.get? slot).any fun e => e.status == .running

/-- The slot that a dispatch enters, if its answer tells to. -/
def enteredBy (t : Table c) (target : Handle) : Answer → List Nat
  | .dispatched (.enter _) => (t.named? target).toList
  | _ => []

/-- All that a dispatch does to the slots. -/
def dispatchDeeds (t : Table c) (target : Handle) (answer : Answer) : List Deed :=
  (t.enteredBy target answer).map .enter ++ (t.reapedBy target).map .give ++
    t.demoted?.toList.map (.move · .runnable)

theorem isDying_eq (hGet : t.get? slot = some e) : t.isDying slot = decide (e.status = .dying) := by
  rw [isDying, hGet]
  rfl

theorem isDying_iff : t.isDying slot ↔ ∃ e, t.get? slot = some e ∧ e.status = .dying := by
  simp [isDying, Option.any_eq_true]

theorem reaped?_eq_some_iff : t.reaped? = some slot ↔ t.current = some slot ∧ t.isDying slot :=
  Option.filter_eq_some_iff

/-- Taking the processor away releases the current slot, or makes its environment wait for its turn,
or does nothing. -/
theorem change_preempted (sound : t.Sound free) :
    Change t (t.reaped?.toList.map .give ++ t.demoted?.toList.map (.move · .runnable))
      t.preempted := by
  unfold reaped? demoted? preempted
  cases hSlot : t.current with
  | none => exact .keep t
  | some slot =>
      obtain ⟨e, hGet, hLive⟩ := sound.current_live hSlot
      simp only [Option.filter_some, isDying_eq hGet, hGet, Option.bind_some, Option.map_some,
        Option.any_some]
      cases hStatus : e.status with
      | free => exact absurd hStatus hLive
      | dying => exact .give hGet hLive
      | running => exact .move hGet hLive Status.noConfusion (by simp [hStatus, Status.allows])
      | runnable | blocked => exact .keep t

theorem preempted_of_none (hCurrent : t.current = none) : t.preempted = t := by
  simp [preempted, hCurrent]

theorem preempted_of_current (hCurrent : t.current = some slot) (hGet : t.get? slot = some e) :
    t.preempted = match e.status with
      | .dying => t.freed slot e
      | .running => t.put slot { e with status := .runnable }
      | _ => t := by
  simp only [preempted, hCurrent, hGet, Option.bind_some, Option.map_some]
  cases hStatus : e.status <;> simp

/-- Only the current record changes when the processor is taken away. -/
theorem get?_preempted_of_ne (hOther : t.current ≠ some slot) :
    t.preempted.get? slot = t.get? slot := by
  cases hCurrent : t.current with
  | none => rw [preempted_of_none hCurrent]
  | some current =>
      have hNe : current ≠ slot := fun hSame => hOther (hSame ▸ hCurrent)
      cases hGet : t.get? current with
      | none => simp [preempted, hCurrent, hGet]
      | some e =>
          rw [preempted_of_current hCurrent hGet]
          cases e.status with
          | dying => exact get?_put_of_ne hNe
          | running => exact get?_put_of_ne hNe
          | free | runnable | blocked => rfl

/-- A record that is not released is found with its status, or with that of one which gave up the
processor. -/
theorem get?_preempted_eq (hGet : t.get? slot = some e) (hReaped : t.reaped? ≠ some slot) :
    t.preempted.get? slot = some { e with
      status := if t.current = some slot ∧ e.status = .running then .runnable else e.status } := by
  by_cases hCurrent : t.current = some slot
  · have hDying : e.status ≠ .dying := by
      intro hDying
      exact hReaped (reaped?_eq_some_iff.mpr ⟨hCurrent, isDying_iff.mpr ⟨e, hGet, hDying⟩⟩)
    rw [preempted_of_current hCurrent hGet]
    cases hStatus : e.status with
    | dying => exact absurd hStatus hDying
    | running => simpa [hCurrent] using get?_put_same hGet
    | free | runnable | blocked =>
        simp only [reduceCtorEq, and_false, if_false]
        rw [← hStatus]
        exact hGet
  · rw [get?_preempted_of_ne hCurrent, hGet]
    simp [hCurrent]

/-- A dispatch releases the current slot and that of the target, each if its environment is
dying. -/
theorem mem_reapedBy : slot ∈ t.reapedBy target ↔
    (t.current = some slot ∨ t.named? target = some slot) ∧ t.isDying slot := by
  simp only [reapedBy, List.mem_append, Option.mem_toList, Option.filter_eq_some_iff,
    reaped?_eq_some_iff, Bool.and_eq_true, decide_eq_true_iff]
  by_cases hCurrent : t.current = some slot <;> simp [hCurrent]

/-- The current slot is released once, also if it is that of the target. -/
theorem reapedBy_current (hNamed : t.named? target = some slot) (hReaped : t.reaped? = some slot) :
    t.reapedBy target = [slot] := by
  have hCurrent := (reaped?_eq_some_iff.mp hReaped).1
  simp [reapedBy, hNamed, hReaped, hCurrent, Option.filter_some]

/-- A target that was not released with the current environment is released if it is dying. -/
theorem reapedBy_target (hNamed : t.named? target = some slot) (hGet : t.get? slot = some e)
    (hReaped : t.reaped? ≠ some slot) : t.reapedBy target =
      if e.status = .dying then slot :: t.reaped?.toList else t.reaped?.toList := by
  by_cases hDying : e.status = .dying
  · have hOther : t.current ≠ some slot := fun hCurrent =>
      hReaped (reaped?_eq_some_iff.mpr ⟨hCurrent, isDying_iff.mpr ⟨e, hGet, hDying⟩⟩)
    simp [reapedBy, hNamed, isDying_eq hGet, hDying, hOther, Option.filter_some]
  · simp [reapedBy, hNamed, isDying_eq hGet, hDying, Option.filter_some]

/-- How a dispatch ends, by the record that the target names: the result, and the table left
behind. -/
inductive Dispatched (t : Table c) (target : Handle) :
    Except (Stop Error) Dispatch → Table c → Prop where
  | refused (hNamed : t.named? target = none) :
      Dispatched t target (.error (.refused .badEnvironment)) t
  | reapedCurrent {slot : Nat} {e : Environment} (hNamed : t.named? target = some slot)
      (hGet : t.get? slot = some e) (hDying : e.status = .dying)
      (hReaped : t.reaped? = some slot) : Dispatched t target (.ok .yield) t.preempted
  | reapedTarget {slot : Nat} {e : Environment} (hNamed : t.named? target = some slot)
      (hGet : t.get? slot = some e) (hDying : e.status = .dying) (hReaped : t.reaped? ≠ some slot)
      (hAfter : t.preempted.get? slot = some e) :
      Dispatched t target (.ok .yield) (t.preempted.freed slot e)
  | entered {slot : Nat} {e : Environment} (hNamed : t.named? target = some slot)
      (hGet : t.get? slot = some e)
      (hRuns : e.status = .runnable ∨ e.status = .running ∧ t.current = some slot)
      (hAfter : t.preempted.get? slot = some { e with status := .runnable }) :
      Dispatched t target (.ok (.enter e.frame))
        (t.preempted.entered slot { e with status := .runnable })
  | panicked {slot : Nat} {e : Environment} (hNamed : t.named? target = some slot)
      (hGet : t.get? slot = some e)
      (hStuck : e.status = .blocked ∨ e.status = .running ∧ t.current ≠ some slot) :
      Dispatched t target (.error (.panicked (.illegalTransition e.status .running)))
        { t.preempted with current := some slot }

theorem not_dying_of_runs
    (hRuns : e.status = .runnable ∨ e.status = .running ∧ t.current = some slot) :
    e.status ≠ .dying := by
  rcases hRuns with hWaits | ⟨hCurrent, -⟩
  · simp [hWaits]
  · simp [hCurrent]

theorem reaped?_ne_of_not_dying (hGet : t.get? slot = some e) (hDying : e.status ≠ .dying) :
    t.reaped? ≠ some slot := by
  simp [reaped?_eq_some_iff, isDying_eq hGet, hDying]

theorem dispatch_ends (sound : t.Sound free) (target : Handle) :
    ∃ r t', (dispatch target).Ends t [] r t' ∧ Dispatched t target r t' := by
  cases hNamed : t.named? target with
  | none => exact ⟨_, _, dispatch_refuses sound hNamed, .refused hNamed⟩
  | some slot =>
      obtain ⟨e, hGet, hLive⟩ := sound.named_live hNamed
      by_cases hReaped : t.reaped? = some slot
      · have hDying := (reaped?_eq_some_iff.mp hReaped).2
        rw [isDying_eq hGet, decide_eq_true_iff] at hDying
        exact ⟨_, _, dispatch_reaps_current sound hNamed hReaped,
          .reapedCurrent hNamed hGet hDying hReaped⟩
      -- What comes next is decided by the record after the processor was taken away, where a target
      -- that ran as the current environment has become runnable.
      have hAfter := get?_preempted_eq hGet hReaped
      by_cases hRuns : e.status = .runnable ∨ e.status = .running ∧ t.current = some slot
      · have hRunnable : t.preempted.get? slot = some { e with status := .runnable } := by
          rw [hAfter]
          rcases hRuns with hWaits | ⟨hRunning, hCurrent⟩
          · simp [hWaits]
          · simp [hRunning, hCurrent]
        have hEnds := dispatch_enters sound hNamed hReaped hRunnable rfl
        exact ⟨.ok (.enter e.frame), _, hEnds, .entered hNamed hGet hRuns hRunnable⟩
      obtain ⟨hWaits, hOther⟩ := not_or.mp hRuns
      rw [if_neg fun hBoth => hOther hBoth.symm] at hAfter
      by_cases hDying : e.status = .dying
      · have soundAfter := (change_preempted sound).sound sound
        exact ⟨_, _, dispatch_reaps_target sound soundAfter hNamed hReaped hAfter hDying,
          .reapedTarget hNamed hGet hDying hReaped hAfter⟩
      · refine ⟨_, _, dispatch_panics sound hNamed hReaped hAfter hDying hWaits,
          .panicked hNamed hGet ?_⟩
        cases hStatus : e.status with
        | free | dying | runnable => contradiction
        | blocked => exact .inl rfl
        | running => exact .inr ⟨rfl, fun hCurrent => hOther ⟨hStatus, hCurrent⟩⟩

/-- A dispatch is refused and changes nothing, or it panics, or it is answered and has done its
deeds. -/
theorem dispatch_cases (sound : t.Sound free) (target : Handle) :
    (∃ error, (dispatch target).Ends t [] (.error (.refused error)) t) ∨
      (∃ cause t', (dispatch target).Ends t [] (.error (.panicked cause)) t') ∨
      ∃ next t', (dispatch target).Ends t [] (.ok next) t' ∧
        Change t (t.dispatchDeeds target (.dispatched next)) t' := by
  have hPreempted := change_preempted sound
  obtain ⟨r, t', hEnds, hHow⟩ := dispatch_ends sound target
  cases hHow with
  | refused => exact .inl ⟨_, hEnds⟩
  | panicked => exact .inr (.inl ⟨_, _, hEnds⟩)
  | reapedCurrent hNamed _ _ hReaped =>
      refine .inr (.inr ⟨_, _, hEnds, ?_⟩)
      rw [hReaped] at hPreempted
      rw [dispatchDeeds, reapedBy_current hNamed hReaped]
      exact hPreempted
  | reapedTarget hNamed hGet hDying hReaped hAfter =>
      refine .inr (.inr ⟨_, _, hEnds, ?_⟩)
      rw [dispatchDeeds, reapedBy_target hNamed hGet hReaped, if_pos hDying]
      exact hPreempted.trans (.give hAfter (by simp [hDying]))
  | entered hNamed hGet hRuns hAfter =>
      have hDying := not_dying_of_runs hRuns
      have hReapedBy := reapedBy_target hNamed hGet (reaped?_ne_of_not_dying hGet hDying)
      rw [if_neg hDying] at hReapedBy
      refine .inr (.inr ⟨_, _, hEnds, ?_⟩)
      simp only [dispatchDeeds, enteredBy, hNamed, hReapedBy, Option.toList_some, List.map_cons,
        List.map_nil, List.append_assoc]
      exact hPreempted.trans (.enter hAfter rfl)

/-- What an answered dispatch has done is told by its answer. -/
theorem dispatch_answered (sound : t.Sound free) {next : Dispatch}
    (hResult : ((dispatch target).outcome t).result = .ok next) :
    Change t (t.dispatchDeeds target (.dispatched next)) ((dispatch target).outcome t).state := by
  rcases dispatch_cases sound target with
    ⟨error, hEnds⟩ | ⟨cause, t', hEnds⟩ | ⟨next', t', hEnds, hChange⟩
  · rw [hEnds.outcome_eq] at hResult
    cases hResult
  · rw [hEnds.outcome_eq] at hResult
    cases hResult
  · rw [hEnds.outcome_eq] at hResult ⊢
    cases hResult
    exact hChange

/-- A dispatch that is answered puts the slots that it releases on the free list. -/
theorem dispatch_reaps (sound : t.Sound free) {next : Dispatch}
    (hResult : ((dispatch target).outcome t).result = .ok next) :
    ((dispatch target).outcome t).state.Sound (t.reapedBy target ++ free) := by
  have hAfter := (dispatch_answered sound hResult).sound sound
  have hEnter := filterMap_record .enter (fun _ => rfl) (t.enteredBy target (.dispatched next))
  have hMove := filterMap_record (.move · .runnable) (fun _ => rfl) t.demoted?.toList
  have hPush (slots : List Nat) :
      (slots.map Action.give).foldr (Action.restack c) free = slots ++ free := by
    induction slots with
    | nil => rfl
    | cons slot slots ih => exact congrArg (slot :: ·) ih
  simp only [dispatchDeeds, List.filterMap_append, filterMap_give, hEnter, hMove,
    List.nil_append, List.append_nil, hPush] at hAfter
  exact hAfter

/-- What a dispatch is answered, or the panic it ends with, by the record that the target names. -/
theorem dispatch_result (sound : t.Sound free) (hNamed : t.named? target = some slot)
    (hGet : t.get? slot = some e) : ((dispatch target).outcome t).result =
      if e.status = .dying then .ok .yield
      else if e.status = .runnable ∨ e.status = .running ∧ t.current = some slot then
        .ok (.enter e.frame)
      else .error (.panicked (.illegalTransition e.status .running)) := by
  obtain ⟨r, t', hEnds, hHow⟩ := dispatch_ends sound target
  rw [hEnds.outcome_eq]
  cases hHow with
  | refused hNone =>
      rw [hNamed] at hNone
      cases hNone
  | reapedCurrent hSlot hRecord hDying | reapedTarget hSlot hRecord hDying =>
      cases hNamed.symm.trans hSlot
      cases hGet.symm.trans hRecord
      rw [if_pos hDying]
  | entered hSlot hRecord hRuns =>
      cases hNamed.symm.trans hSlot
      cases hGet.symm.trans hRecord
      rw [if_neg (not_dying_of_runs hRuns), if_pos hRuns]
  | panicked hSlot hRecord hStuck =>
      cases hNamed.symm.trans hSlot
      cases hGet.symm.trans hRecord
      rcases hStuck with hBlocked | ⟨hRunning, hOther⟩
      · simp [hBlocked]
      · simp [hRunning, hOther]

/-- A dying target is never entered. -/
theorem dispatch_yields (sound : t.Sound free) (hNamed : t.named? target = some slot)
    (hDying : t.isDying slot) : ((dispatch target).outcome t).result = .ok .yield := by
  obtain ⟨e, hGet, hStatus⟩ := isDying_iff.mp hDying
  rw [dispatch_result sound hNamed hGet, if_pos hStatus]

/-- What is entered is the environment that the target names. It is in use and not dying, it is
the current one afterwards, and it goes on from its saved frame. -/
theorem dispatch_entered (sound : t.Sound free) {frame : Frame}
    (hResult : ((dispatch target).outcome t).result = .ok (.enter frame)) :
    ∃ slot e, t.named? target = some slot ∧ t.get? slot = some e ∧ e.status ≠ .free ∧
      e.status ≠ .dying ∧ e.frame = frame ∧
      ((dispatch target).outcome t).state.current = some slot ∧
      ((dispatch target).outcome t).state.get? slot =
        some { e with status := .running, runs := e.runs + 1 } := by
  obtain ⟨r, t', hEnds, hHow⟩ := dispatch_ends sound target
  rw [hEnds.outcome_eq] at hResult ⊢
  cases hHow with
  | entered hNamed hGet hRuns hAfter =>
      cases hResult
      obtain ⟨e, hSame, hLive⟩ := sound.named_live hNamed
      cases hGet.symm.trans hSame
      exact ⟨_, _, hNamed, hGet, hLive, not_dying_of_runs hRuns, rfl, rfl, get?_put_same hAfter⟩
  | refused | reapedCurrent | reapedTarget | panicked => cases hResult

end Supervisor.Table
