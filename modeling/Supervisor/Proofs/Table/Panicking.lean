import Supervisor.Proofs.Table.Run

/-! When operations panic. In a sound table only setting a status and dispatching can. -/

namespace Supervisor.Table

open Effect

variable {c : Capacity} {build : Build} {t : Table c} {events : List (Event c)} {slot : Nat}
  {e : Environment} {free : List Nat} {target : Handle}

theorem allocate_not_panics (sound : t.Sound free) (parent : Handle) (kind : Kind) :
    ¬ (allocate build parent kind).Panics t := by
  rcases allocate_cases sound build parent kind with
    ⟨error, hEnds⟩ | ⟨slot, e, rest, rfl, hGet, hRoom⟩
  · exact hEnds.not_panics_of_refused
  · exact (allocate_ends sound hGet hRoom).not_panics

/-- Creation does not panic either, whatever the file: loading it only gives a span or a refusal. -/
theorem create_not_panics (sound : t.Sound free) (file : Buffer) (kind : Kind) (limit : UInt64)
    (resolver : Loading.Resolver) : ¬ (create build file kind limit resolver).Panics t := by
  rcases create_cases sound build file kind limit resolver with
    ⟨writes, error, hEnds⟩ | ⟨writes, span, slot, e, rest, rfl, hGet, hRoom, hLoad⟩
  · exact hEnds.not_panics_of_refused
  · exact (create_ends sound hGet hRoom hLoad).not_panics

theorem release_not_panics (sound : t.Sound free) (target : Handle) :
    ¬ (release target).Panics t := by
  rcases release_cases sound target with ⟨-, hEnds⟩ | ⟨slot, e, -, -, -, hEnds⟩
  · exact hEnds.not_panics_of_refused
  · exact hEnds.not_panics

theorem destroy_not_panics (sound : t.Sound free) (target : Handle) :
    ¬ (destroy target).Panics t := by
  rcases destroy_cases sound target with
    ⟨-, hEnds⟩ | ⟨slot, e, -, -, -, ⟨-, hEnds⟩ | ⟨-, hEnds⟩⟩
  · exact hEnds.not_panics_of_refused
  · exact hEnds.not_panics
  · exact hEnds.not_panics

theorem lookup_not_panics (sound : t.Sound free) (target : Handle) (checked : Bool) :
    ¬ (lookup target checked).Panics t := by
  cases hReach : t.reachable? target checked with
  | none => exact (resolve_stops sound hReach _).not_panics_of_refused
  | some slot =>
      obtain ⟨e, hGet, -⟩ := sound.named_live (named?_of_reachable? hReach)
      exact (lookup_ends sound hReach hGet).not_panics

/-- Once the processor is taken from the current environment, a target is neither runnable nor dying
exactly if it was blocked, or running without being the current one. The cause is always that it
cannot be made to run. -/
theorem dispatch_panicked_iff (sound : t.Sound free) {cause : Panic} :
    ((dispatch target).outcome t).result = .error (.panicked cause) ↔
      ∃ slot e, t.named? target = some slot ∧ t.get? slot = some e ∧
        (e.status = .blocked ∨ e.status = .running ∧ t.current ≠ some slot) ∧
        cause = .illegalTransition e.status .running := by
  cases hNamed : t.named? target with
  | none => simp [(dispatch_refuses sound hNamed).outcome_eq]
  | some slot =>
      obtain ⟨e, hGet, hLive⟩ := sound.named_live hNamed
      rw [dispatch_result sound hNamed hGet]
      cases hStatus : e.status with
      | free => exact absurd hStatus hLive
      | dying | runnable => simp [hGet, hStatus]
      | blocked => simp [hGet, hStatus, eq_comm]
      | running => by_cases hCurrent : t.current = some slot <;> simp [hGet, hStatus, hCurrent, eq_comm]

/-- At the end of any run without a panic. Allocation, creation, release, destruction, lookup, a
reset and reading the current environment never panic, whatever they are asked for, and the free
slots can be counted. A dispatch panics exactly if its target is blocked, or is running without
being the current environment. -/
theorem panics_by_dispatch_only (run : Run build events t) :
    (∀ parent kind, ¬ (allocate build parent kind).Panics t) ∧
      (∀ file kind limit resolver, ¬ (create build file kind limit resolver).Panics t) ∧
      (∀ target, ¬ (release target).Panics t) ∧
      (∀ target, ¬ (destroy target).Panics t) ∧
      (∀ target checked, ¬ (lookup target checked).Panics t) ∧
      ¬ currentHandle.Panics t ∧
      ¬ currentEnvironment.Panics t ∧
      ¬ reset.Panics t ∧
      (∃ count, t.freeCount? = some count ∧ count ≤ c.size) ∧
      ∀ target, (dispatch target).Panics t ↔
        ∃ slot e, ((resolve target false).outcome t).result = .ok slot ∧ t.get? slot = some e ∧
          (e.status = .blocked ∨ e.status = .running ∧ t.current ≠ some slot) := by
  have sound := run.sound
  refine ⟨allocate_not_panics sound, create_not_panics sound, release_not_panics sound,
    destroy_not_panics sound, lookup_not_panics sound,
    (currentHandle_ends sound.hasCurrent).not_panics,
    (currentEnvironment_ends sound.hasCurrent).not_panics, (ends_update _ t).not_panics, ?_, ?_⟩
  · refine ⟨(stack c (history events)).length, ?_, sound.length_le⟩
    rw [freeCount?, sound.freeList?_eq]
    rfl
  · intro target
    simp only [Panics, dispatch_panicked_iff sound, resolve_eq_ok_iff sound]
    constructor
    · rintro ⟨cause, slot, e, hNamed, hGet, hStatus, -⟩
      exact ⟨slot, e, hNamed, hGet, hStatus⟩
    · rintro ⟨slot, e, hNamed, hGet, hStatus⟩
      exact ⟨_, slot, e, hNamed, hGet, hStatus, rfl⟩

namespace Sample

def blocking : Event pair :=
  (Event.of? .bare second.after (.setStatus ⟨0x1000⟩ false .blocked)).get (by decide +kernel)

def starting : Event pair :=
  (Event.of? .bare blocking.after (.setStatus ⟨0x1001⟩ false .running)).get (by decide +kernel)

theorem run_starting : Run .bare [starting, blocking, second, first] starting.after :=
  .step (.step (.step (.step .start (Option.some_get _).symm) (Option.some_get _).symm)
    (Option.some_get _).symm) (Option.some_get _).symm

end Sample

theorem panics_by_dispatch_only_blocked :
    Run .bare [Sample.starting, Sample.blocking, Sample.second, Sample.first]
        Sample.starting.after ∧
      (dispatch ⟨0x1000⟩).Panics Sample.starting.after ∧
      (dispatch ⟨0x1001⟩).Panics Sample.starting.after ∧
      ¬ (destroy ⟨0x1001⟩).Panics Sample.starting.after := by
  have sound := Sample.run_starting.sound
  obtain ⟨-, -, -, hDestroy, -, -, -, -, -, hDispatch⟩ :=
    panics_by_dispatch_only Sample.run_starting
  have hBlocked : (Sample.starting.after.get? 0).map (·.status) = some .blocked := by
    decide +kernel
  have hRunning : (Sample.starting.after.get? 1).map (·.status) = some .running := by
    decide +kernel
  have hCurrent : Sample.starting.after.current = none := by decide +kernel
  obtain ⟨e, hGet, hStatus⟩ := Option.map_eq_some_iff.mp hBlocked
  obtain ⟨e', hGet', hStatus'⟩ := Option.map_eq_some_iff.mp hRunning
  refine ⟨Sample.run_starting, (hDispatch _).mpr ⟨0, e, ?_, hGet, .inl hStatus⟩,
    (hDispatch _).mpr ⟨1, e', ?_, hGet', .inr ⟨hStatus', by simp [hCurrent]⟩⟩, hDestroy _⟩
  · exact (resolve_eq_ok_iff sound).mpr (by decide +kernel)
  · exact (resolve_eq_ok_iff sound).mpr (by decide +kernel)

end Supervisor.Table
