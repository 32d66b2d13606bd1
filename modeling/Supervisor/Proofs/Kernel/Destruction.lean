import Supervisor.Proofs.Kernel.Exit

/-! How destructions end. The slot that the handle resolves to decides: one that is current is
released and the kernel is left, any other is marked. -/

namespace Supervisor

namespace Table

variable {c : Capacity} {t t' : Table c} {h : Handle} {slot : Nat} {e : Environment}
  {free : List Nat}

/-- Between two tables the environment of a slot that is not current was marked as dying. It keeps
its handle and stays off the free list, and all else is as it was. -/
structure Dooms (h : Handle) (slot : Nat) (t t' : Table c) : Prop where
  record : ∃ e, t.get? slot = some e ∧ e.handle = h ∧
    t'.get? slot = some { e with status := .dying }
  unlisted : ∃ free, t.freeList? = some free ∧ t'.freeList? = some free ∧ slot ∉ free
  current : t'.current = t.current
  others : ∀ other, other ≠ slot → t'.get? other = t.get? other
  stackTop : t'.stackTop = t.stackTop

/-- Between two tables the current slot became the head of the free list, and nothing is current any
more. All else is as it was. -/
structure Vacates (slot : Nat) (t t' : Table c) : Prop where
  record : ∃ e, t.get? slot = some e ∧
    t'.get? slot = some { e with status := .free, link := t.freeHead }
  listed : ∃ free, t.freeList? = some free ∧ t'.freeList? = some (slot :: free)
  current : t.current = some slot ∧ t'.current = none
  others : ∀ other, other ≠ slot → t'.get? other = t.get? other
  stackTop : t'.stackTop = t.stackTop

/-- A handle that names a slot other than the current one is the one that is stored there. -/
theorem handle_of_named? (hNamed : t.named? h = some slot) (hOther : t.current ≠ some slot)
    (hGet : t.get? slot = some e) : e.handle = h := by
  have hReserved : ¬ h.isReserved :=
    fun hReserved => hOther ((named?_of_reserved hReserved).symm.trans hNamed)
  obtain ⟨-, found, hFound, -, hHandle⟩ := (named?_eq_some_iff hReserved).mp hNamed
  cases hGet.symm.trans hFound
  exact hHandle

theorem Sound.dooms (sound : t.Sound free) (hNamed : t.named? h = some slot)
    (hGet : t.get? slot = some e) (hLive : e.status ≠ .free) (hOther : t.current ≠ some slot) :
    Dooms h slot t (t.put slot { e with status := .dying }) where
  record := ⟨e, hGet, handle_of_named? hNamed hOther hGet, get?_put_same hGet⟩
  unlisted := by
    have hAfter : (t.put slot { e with status := .dying }).Sound free :=
      sound.put hGet hLive (by simp)
    exact ⟨free, sound.freeList?_eq, hAfter.freeList?_eq, sound.not_mem hGet hLive⟩
  current := rfl
  others := fun _ hNe => get?_put_of_ne hNe.symm
  stackTop := rfl

theorem Sound.vacates (sound : t.Sound free) (hGet : t.get? slot = some e)
    (hLive : e.status ≠ .free) (hCurrent : t.current = some slot) :
    Vacates slot t (t.freed slot e) where
  record := ⟨e, hGet, get?_put_same hGet⟩
  listed := ⟨free, sound.freeList?_eq, (sound.freed hGet hLive).freeList?_eq⟩
  current := ⟨hCurrent, if_pos hCurrent⟩
  others := fun _ hNe => get?_put_of_ne hNe.symm
  stackTop := rfl

/-- What a handle resolves to is the slot that it names. -/
theorem resolve_unchecked (sound : t.Sound free) (h : Handle) :
    ((resolve h false).outcome t).result = Stop.ofOption .badEnvironment (t.named? h) := by
  rw [(resolve_ends sound h false).outcome_eq, reachable?_unchecked]

end Table

namespace Kernel

open Effect

variable {c : Capacity} {μ : Type} {build : Build} {k : Kernel c μ} {calls : List (Call c μ)}
  {slot : Nat} {machine : μ} {free : List Nat} {target : Handle} {e : Environment}

/-- An exit releases the current environment and is the way out of the kernel. -/
theorem Run.exitCurrent_ends (run : Run build calls k) (hCurrent : k.table.current = some slot) :
    ∃ t', (exitCurrent : Op c μ (Departure μ)).Ends k [] (k.wayOut.map .yield)
        { k with table := t' } ∧ Table.Vacates slot k.table t' := by
  have sound := run.table.sound
  obtain ⟨e, hGet, hLive⟩ := sound.current_live hCurrent
  have hBegin := beginExit_ends (μ := μ) sound.hasCurrent
  rw [Table.currentHandle?_of_get? hCurrent hGet] at hBegin
  have hNamed := run.table.named?_handle hGet hLive
  have hDestroy := Table.destroy_ends_current sound hNamed hGet hLive hCurrent
  have hLeave : afterExit e.handle (k.afterDestroy (.ok .releasedCurrent)) =
      k.wayOut.map .yield := by
    cases hMachine : k.machine <;> simp [afterDestroy, wayOut, hMachine, afterExit, Except.map]
  refine ⟨_, ?_, sound.vacates hGet hLive hCurrent⟩
  rw [← hLeave]
  exact hBegin.andThen (finishExit_ends hDestroy)

/-- An exit that nothing comes in between finds the environment and does not come back. -/
theorem Run.exitCurrent_panics_only (run : Run build calls k) {cause : Panic}
    (hPanic : ((exitCurrent : Op c μ (Departure μ)).outcome k).result =
      .error (.panicked cause)) : cause = .nothingToExit ∨ cause = .noMachine := by
  cases hCurrent : k.table.current with
  | none =>
      have hBegin := beginExit_ends (μ := μ) run.table.sound.hasCurrent
      rw [Table.currentHandle?_of_none hCurrent] at hBegin
      have hEnds : (exitCurrent : Op c μ (Departure μ)).Ends k []
        (.error (.panicked .nothingToExit)) k := hBegin.bind_stop
      rw [hEnds.outcome_eq] at hPanic
      cases hPanic
      exact .inl rfl
  | some slot =>
      obtain ⟨t', hEnds, -⟩ := run.exitCurrent_ends hCurrent
      rw [hEnds.outcome_eq] at hPanic
      cases hMachine : k.machine with
      | some machine => simp [wayOut, hMachine, Except.map] at hPanic
      | none =>
          rw [wayOut, hMachine] at hPanic
          cases hPanic
          exact .inr rfl

/-- A destruction is refused if its handle resolves to nothing, marks an environment that is not
current, and vacates the slot of the current one, after which the kernel is left. An exit leaves in
this way whenever there is a current environment. -/
theorem destructions_settled (run : Run build calls k) (hMachine : k.machine = some machine) :
    firstMachine? calls = some machine ∧
    (∀ target,
      let answer := (destroy target).outcome k
      let found := ((Table.resolve target false).outcome k.table).result
      (answer = ⟨[], .error (.refused .badEnvironment), k⟩ ↔ ∀ slot, found ≠ .ok slot) ∧
      (answer.result = .ok none ↔ ∃ slot, found = .ok slot ∧ k.table.current ≠ some slot) ∧
      (∀ slot, found = .ok slot → k.table.current ≠ some slot →
        answer = ⟨[], .ok none, { k with table := answer.state.table }⟩ ∧
          Table.Dooms target slot k.table answer.state.table) ∧
      ∀ slot, found = .ok slot → k.table.current = some slot →
        answer = ⟨[], .ok (some (.yield machine)), { k with table := answer.state.table }⟩ ∧
          Table.Vacates slot k.table answer.state.table) ∧
    let answer := (exitCurrent : Op c μ (Departure μ)).outcome k
    (∀ slot, k.table.current = some slot →
      answer = ⟨[], .ok (.yield machine), { k with table := answer.state.table }⟩ ∧
        Table.Vacates slot k.table answer.state.table) ∧
    ∀ handle error, answer.result ≠ .error (.panicked (.cannotDestroy handle error)) ∧
      answer.result ≠ .error (.panicked (.keptRunning handle)) := by
  have sound := run.table.sound
  refine ⟨run.machine_first.symm.trans hMachine, ?_, ?_⟩
  · intro target answer found
    have hFound : found = Stop.ofOption .badEnvironment (k.table.named? target) :=
      Table.resolve_unchecked sound target
    rcases Table.destroy_cases sound target with
      ⟨hNamed, hEnds⟩ | ⟨slot, e, hNamed, hGet, hLive, ⟨hOther, hEnds⟩ | ⟨hCurrent, hEnds⟩⟩
    · have hAnswer : answer = _ := (destroy_ends hEnds).outcome_eq
      rw [hNamed] at hFound
      simp [hAnswer, hFound, Stop.ofOption, afterDestroy]
    · have hAnswer : answer = _ := (destroy_ends hEnds).outcome_eq
      have hDooms := sound.dooms hNamed hGet hLive hOther
      rw [hNamed] at hFound
      simp [hAnswer, hFound, Stop.ofOption, afterDestroy, hOther, hDooms]
    · have hAnswer : answer = _ := (destroy_ends hEnds).outcome_eq
      have hVacates := sound.vacates hGet hLive hCurrent
      rw [hNamed] at hFound
      simp [hAnswer, hFound, Stop.ofOption, afterDestroy, hCurrent, wayOut, hMachine, Except.map,
        hVacates]
  · intro answer
    constructor
    · intro slot hCurrent
      obtain ⟨t', hEnds, hVacates⟩ := run.exitCurrent_ends hCurrent
      have hAnswer : answer = _ := hEnds.outcome_eq
      simp [hAnswer, wayOut, hMachine, Except.map, hVacates]
    · intro handle error
      constructor
      · intro hPanic
        rcases run.exitCurrent_panics_only hPanic with hCause | hCause <;> cases hCause
      · intro hPanic
        rcases run.exitCurrent_panics_only hPanic with hCause | hCause <;> cases hCause

namespace Sample

def departing : List (Command Unit) :=
  .destroy ⟨0x1001⟩ :: .table (.setCurrentStatus .blocked) :: exiting

theorem run_departing : Run .bare (callsOf .bare departing : List (Call Table.Sample.pair Unit))
    (reached .bare departing) := run_of_goes (by decide +kernel)

end Sample

theorem destructions_settled_blocked :
    let k : Kernel Table.Sample.pair Unit := reached .bare Sample.departing
    Run .bare (callsOf .bare Sample.departing) k ∧ k.machine = some () ∧
      k.table.current = some 0 ∧
      ((destroy ⟨0x1001⟩).outcome k).result = .ok none ∧
      Table.Dooms ⟨0x1001⟩ 1 k.table ((destroy ⟨0x1001⟩).outcome k).state.table ∧
      (destroy ⟨0x2001⟩).outcome k = ⟨[], .error (.refused .badEnvironment), k⟩ ∧
      Table.Vacates 0 k.table ((destroy .reserved).outcome k).state.table ∧
      (exitCurrent.outcome k).result = .ok (.yield ()) := by
  intro k
  have hCurrent : k.table.current = some 0 := by decide +kernel
  have hResolve := Table.resolve_unchecked Sample.run_departing.table.sound
  have hOther : k.table.named? ⟨0x1001⟩ = some 1 := by decide +kernel
  have hStale : k.table.named? ⟨0x2001⟩ = none := by decide +kernel
  have hReserved : k.table.named? .reserved = some 0 := by decide +kernel
  have hMachine : k.machine = some () := rfl
  obtain ⟨-, hDestroy, hExit, -⟩ := destructions_settled Sample.run_departing hMachine
  obtain ⟨hDying, hDooms⟩ := (hDestroy ⟨0x1001⟩).2.2.1 1
    ((hResolve _).trans (by rw [hOther]; rfl)) (by rw [hCurrent]; decide)
  refine ⟨Sample.run_departing, hMachine, hCurrent, congrArg Outcome.result hDying, hDooms, ?_, ?_, ?_⟩
  · refine (hDestroy ⟨0x2001⟩).1.mpr fun slot => ?_
    rw [hResolve, hStale]
    exact nofun
  · exact ((hDestroy .reserved).2.2.2 0 ((hResolve _).trans (by rw [hReserved]; rfl)) hCurrent).2
  · exact congrArg Outcome.result (hExit 0 hCurrent).1

end Kernel

end Supervisor
