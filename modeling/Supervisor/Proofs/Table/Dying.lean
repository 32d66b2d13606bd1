import Supervisor.Proofs.Table.HandleSafety

/-! The dead never run. A dying environment stays so until its slot is released, and its handle is
never issued again. -/

namespace Supervisor.Table

open Effect

variable {c : Capacity} {build : Build} {t t' : Table c} {events : List (Event c)} {slot : Nat}
  {e : Environment} {free : List Nat} {log : List Deed} {target : Handle}

/-- The slot whose environment an event destroys or marks as dying. -/
def Event.doomed? (ev : Event c) : Option Nat :=
  match ev.command, ev.response with
  | .destroy target, .ok (.destroyed _) => ev.before.named? target
  | .setStatus target _ .dying, .ok _ => ev.before.named? target
  | .setCurrentStatus .dying, .ok _ => ev.before.current
  | _, _ => none

/-- What is destroyed or marked is in use. -/
theorem Event.doomed_live {ev : Event c} (sound : ev.before.Sound free)
    (hDoomed : ev.doomed? = some slot) :
    ∃ e, ev.before.get? slot = some e ∧ e.status ≠ .free := by
  unfold Event.doomed? at hDoomed
  split at hDoomed
  · exact sound.named_live hDoomed
  · exact sound.named_live hDoomed
  · exact sound.current_live hDoomed
  · cases hDoomed

/-- It is moved to dying, or its slot is given back at once. -/
theorem Event.doomed_deeds {ev : Event c} (hDoomed : ev.doomed? = some slot) :
    .move slot .dying ∈ ev.deeds build ∨ .give slot ∈ ev.deeds build := by
  obtain ⟨t, command, response, t'⟩ := ev
  unfold Event.doomed? at hDoomed
  split at hDoomed
  · next target outcome hCommand hResponse =>
      cases hCommand
      cases hResponse
      simp only at hDoomed
      cases outcome with
      | dying => exact .inl (by simp [Event.deeds, hDoomed])
      | releasedCurrent => exact .inr (by simp [Event.deeds, hDoomed])
  · next target checked answer hCommand hResponse =>
      cases hCommand
      cases hResponse
      simp only at hDoomed
      exact .inl (by simp [Event.deeds, hDoomed])
  · next answer hCommand hResponse =>
      cases hCommand
      cases hResponse
      simp only at hDoomed
      exact .inl (by simp [Event.deeds, hDoomed])
  · cases hDoomed

section Run

variable {later earlier : List (Event c)} {ev : Event c}

/-- What was done since an event, and what was done before it. -/
theorem history_split (later : List (Event c)) (ev : Event c) (earlier : List (Event c)) :
    history (later ++ ev :: earlier) = history (later ++ [ev]) ++ history earlier := by
  simp [history]

theorem reset_not_mem_since (hReset : .reset ∉ history (later ++ ev :: earlier)) :
    .reset ∉ history (later ++ [ev]) := by
  rw [history_split] at hReset
  exact fun hMem => hReset (List.mem_append_left _ hMem)

/-- A destroyed or marked environment whose slot was not given back is dying. -/
theorem Run.dying_of_doomed (run : Run build (later ++ ev :: earlier) t)
    (hReset : .reset ∉ history (later ++ ev :: earlier)) (hDoomed : ev.doomed? = some slot)
    (hHeld : .give slot ∉ history (later ++ [ev])) (hGet : ev.before.get? slot = some e)
    (hLive : e.status ≠ .free) :
    ∃ e', t.get? slot = some e' ∧ e'.tenant = e.tenant ∧ e'.status = .dying := by
  have hSince : .reset ∉ deeds build (later ++ [ev]) := by
    rw [← reset_mem_filterMap, filterMap_deeds]
    exact reset_not_mem_since hReset
  rw [← filterMap_deeds build, give_mem_filterMap] at hHeld
  have hMem : ev ∈ later ++ [ev] := by simp
  have hMoved : .move slot .dying ∈ deeds build (later ++ [ev]) := by
    rcases Event.doomed_deeds hDoomed with hMove | hGive
    · exact List.mem_flatMap.mpr ⟨ev, hMem, hMove⟩
    · exact absurd (List.mem_flatMap.mpr ⟨ev, hMem, hGive⟩) hHeld
  obtain ⟨e', hGet', hTenant, -, -, hStatus⟩ :=
    run.since.stays run.until.1.sound hSince hHeld hGet hLive
  exact ⟨e', hGet', hTenant, hStatus (.inr hMoved)⟩

/-- The handle of an environment whose slot was given back since names nothing. -/
theorem Run.named?_of_given (run : Run build (later ++ ev :: earlier) t)
    (hReset : .reset ∉ history (later ++ ev :: earlier))
    (hGiven : .give slot ∈ history (later ++ [ev])) (hGet : ev.before.get? slot = some e)
    (hLive : e.status ≠ .free) : t.named? e.handle = none := by
  have hNamed := run.until.1.named?_later (List.append_cons later ev earlier ▸ run)
    (reset_not_mem_since hReset) hGet hLive
  rwa [if_pos hGiven] at hNamed

/-- What a dispatch enters has another handle than an environment that was destroyed or marked. -/
theorem Run.entered_of_doomed (run : Run build (later ++ ev :: earlier) t)
    (hReset : .reset ∉ history (later ++ ev :: earlier)) (hDoomed : ev.doomed? = some slot)
    (hGet : ev.before.get? slot = some e) (hLive : e.status ≠ .free) {frame : Frame}
    (hResult : ((dispatch target).outcome t).result = .ok (.enter frame)) :
    ∃ other e', t.named? target = some other ∧ t.get? other = some e' ∧
      ((dispatch target).outcome t).state.current = some other ∧ e'.handle ≠ e.handle := by
  obtain ⟨other, e', hNamed, hGet', hLive', hNotDying, -, hCurrent, -⟩ :=
    dispatch_entered run.sound hResult
  refine ⟨other, e', hNamed, hGet', hCurrent, ?_⟩
  intro hSame
  have hOther := run.named?_handle hGet' hLive'
  rw [hSame] at hOther
  by_cases hGiven : .give slot ∈ history (later ++ [ev])
  · cases (run.named?_of_given hReset hGiven hGet hLive).symm.trans hOther
  · obtain ⟨e'', hGet'', hTenant, hStatus⟩ :=
      run.dying_of_doomed hReset hDoomed hGiven hGet hLive
    have hHandle : e''.handle = e.handle := congrArg Tenant.handle hTenant
    have hSlot := run.named?_handle hGet'' (by simp [hStatus])
    rw [hHandle] at hSlot
    cases hOther.symm.trans hSlot
    cases hGet'.symm.trans hGet''
    exact hNotDying hStatus

end Run

/-- An environment that was destroyed or marked is dying until its slot is given back, and then its
handle names nothing. No dispatch enters it: one that finds it releases its slot, and yields if it
is the target. -/
theorem dead_never_run (run : Run build events t) (hKept : ∀ ev ∈ events, ev.command ≠ .reset) :
    (∀ later ev earlier slot, events = later ++ ev :: earlier → ev.doomed? = some slot →
      ∃ e, ev.before.get? slot = some e ∧ e.status ≠ .free ∧
        (.give slot ∉ history (later ++ [ev]) →
          ∃ e', t.get? slot = some e' ∧ e'.tenant = e.tenant ∧ e'.status = .dying) ∧
        (.give slot ∈ history (later ++ [ev]) → ∀ checked,
          (resolve e.handle checked).outcome t = ⟨[], .error (.refused .badEnvironment), t⟩) ∧
        ∀ target frame, ((dispatch target).outcome t).result = .ok (.enter frame) →
          ∃ other e', t.named? target = some other ∧ t.get? other = some e' ∧
            ((dispatch target).outcome t).state.current = some other ∧ e'.handle ≠ e.handle) ∧
      ∀ target, let after := ((dispatch target).outcome t).state
        (∀ slot next, ((dispatch target).outcome t).result = .ok next →
          t.current = some slot ∨ t.named? target = some slot → t.isDying slot →
            (∃ e, after.get? slot = some e ∧ e.status = .free) ∧
              ∃ free, after.freeList? = some free ∧ slot ∈ free) ∧
          ∀ slot, t.named? target = some slot → t.isDying slot →
            ((dispatch target).outcome t).result = .ok .yield := by
  have sound := run.sound
  refine ⟨?_, ?_⟩
  · intro later ev earlier slot hSplit hDoomed
    subst hSplit
    have hReset := reset_not_mem_history hKept
    obtain ⟨e, hGet, hLive⟩ := Event.doomed_live run.until.1.sound hDoomed
    refine ⟨e, hGet, hLive, ?_, ?_, ?_⟩
    · exact fun hHeld => run.dying_of_doomed hReset hDoomed hHeld hGet hLive
    · intro hGiven checked
      have hReach : t.reachable? e.handle checked = none := by
        rw [reachable?, run.named?_of_given hReset hGiven hGet hLive, Option.filter_none]
      have hEnds := resolve_ends sound e.handle checked
      rw [hReach] at hEnds
      exact hEnds.outcome_eq
    · exact fun target frame => run.entered_of_doomed hReset hDoomed hGet hLive
  · intro target after
    refine ⟨?_, fun slot => dispatch_yields sound⟩
    intro slot next hResult hNamed hDying
    have soundAfter : after.Sound _ := dispatch_reaps sound hResult
    have hMem : slot ∈ t.reapedBy target ++ stack c (history events) :=
      List.mem_append_left _ (mem_reapedBy.mpr ⟨hNamed, hDying⟩)
    obtain ⟨e, hGet⟩ := soundAfter.linked.exists_get? slot hMem
    exact ⟨⟨e, hGet, (soundAfter.mem_iff hGet).mp hMem⟩, _, soundAfter.freeList?_eq, hMem⟩

namespace Sample

def entering : Event pair :=
  (Event.of? .bare second.after (.dispatch ⟨0x1001⟩)).get (by decide +kernel)

def dooming : Event pair :=
  (Event.of? .bare entering.after (.destroy ⟨0x1000⟩)).get (by decide +kernel)

def reaping : Event pair :=
  (Event.of? .bare dooming.after (.dispatch ⟨0x1000⟩)).get (by decide +kernel)

def retaking : Event pair :=
  (Event.of? .bare reaping.after (.allocate .reserved .user)).get (by decide +kernel)

theorem run_doomed : Run .bare [dooming, entering, second, first] dooming.after :=
  .step (.step (.step (.step .start (Option.some_get _).symm) (Option.some_get _).symm)
    (Option.some_get _).symm) (Option.some_get _).symm

theorem run_retaken :
    Run .bare [retaking, reaping, dooming, entering, second, first] retaking.after :=
  .step (.step run_doomed (Option.some_get _).symm) (Option.some_get _).symm

theorem no_reset_retaken :
    ∀ ev ∈ [retaking, reaping, dooming, entering, second, first], ev.command ≠ .reset := by
  have hFirst : first.command = _ := Event.command_of? (Option.some_get _).symm
  have hSecond : second.command = _ := Event.command_of? (Option.some_get _).symm
  have hEntering : entering.command = _ := Event.command_of? (Option.some_get _).symm
  have hDooming : dooming.command = _ := Event.command_of? (Option.some_get _).symm
  have hReaping : reaping.command = _ := Event.command_of? (Option.some_get _).symm
  have hRetaking : retaking.command = _ := Event.command_of? (Option.some_get _).symm
  simp [hFirst, hSecond, hEntering, hDooming, hReaping, hRetaking]

end Sample

theorem dead_never_run_retaken :
    Run .bare [Sample.retaking, Sample.reaping, Sample.dooming, Sample.entering, Sample.second,
        Sample.first] Sample.retaking.after ∧
      Sample.dooming.doomed? = some 0 ∧
      (∃ e, Sample.retaking.after.get? 0 = some e ∧ e.handle = ⟨0x2000⟩) ∧
      (resolve ⟨0x1000⟩ false).outcome Sample.retaking.after =
        ⟨[], .error (.refused .badEnvironment), Sample.retaking.after⟩ := by
  have hDoomed : Sample.dooming.doomed? = some 0 := by decide +kernel
  have hGiven : .give 0 ∈ history [Sample.retaking, Sample.reaping, Sample.dooming] := by
    decide +kernel
  have hHandle : (Sample.dooming.before.get? 0).map (·.handle) = some ⟨0x1000⟩ := by
    decide +kernel
  have hRetaken : (Sample.retaking.after.get? 0).map (·.handle) = some ⟨0x2000⟩ := by
    decide +kernel
  obtain ⟨hDead, -⟩ := dead_never_run Sample.run_retaken Sample.no_reset_retaken
  obtain ⟨e, hGet, -, -, hGone, -⟩ :=
    hDead [Sample.retaking, Sample.reaping] Sample.dooming _ 0 rfl hDoomed
  rw [hGet] at hHandle
  have hIssued : e.handle = ⟨0x1000⟩ := Option.some.inj hHandle
  have hResolve := hGone hGiven false
  rw [hIssued] at hResolve
  exact ⟨Sample.run_retaken, hDoomed, Option.map_eq_some_iff.mp hRetaken, hResolve⟩

end Supervisor.Table
