import Supervisor.Proofs.Table.Run

/-! Refusals leave no mark. What is left of a run without its refused commands ends in the same
table. -/

namespace Supervisor.Table

open Effect

variable {c : Capacity} {build : Build} {t : Table c} {events : List (Event c)}

/-- A command that is refused leaves the table as it found it. -/
theorem Run.state_of_refused (run : Run build events t) {command : Command} {error : Error}
    (hRefused : ((command.perform build).outcome t).result = .error (.refused error)) :
    ((command.perform build).outcome t).state = t := by
  obtain ⟨tracked, -⟩ := run.tracked
  have hExplained : Explained build t command := explained tracked.sound command
  obtain ⟨writes, r, t', hEnds, -, hKept⟩ := hExplained
  rw [hEnds.outcome_eq] at hRefused ⊢
  exact hKept error hRefused

/-- Only refused commands are left out, so every other finds the table that it found before. -/
theorem Run.filter (run : Run build events t) (keep : Event c → Bool)
    (hRefused : ∀ ev ∈ events, keep ev = false → ∃ error, ev.response = .error error) :
    Run build (events.filter keep) t := by
  induction run with
  | start => exact .start
  | @step events t command ev hRun hStep ih =>
      have hRest := ih fun ev' hMem => hRefused ev' (List.mem_cons_of_mem _ hMem)
      rw [List.filter_cons]
      cases hKeep : keep ev with
      | true => exact .step hRest hStep
      | false =>
          obtain ⟨error, hError⟩ := hRefused ev (List.mem_cons_self ..) hKeep
          obtain ⟨tracked, -⟩ := hRun.tracked
          have hSame := ((explained tracked.sound command).event hStep).2 error hError
          rw [hSame]
          exact hRest

/-- A command that is refused leaves the whole table as it was, whatever it wrote to memory before.
Refused commands may be left out of a run: the others are answered as before, and the run ends in
the same table. -/
theorem refusals_leave_no_mark (run : Run build events t) :
    (∀ (command : Command) (error : Error),
        ((command.perform build).outcome t).result = .error (.refused error) →
          ((command.perform build).outcome t).state = t) ∧
      ∀ keep : Event c → Bool,
        (∀ ev ∈ events, keep ev = false → ∃ error, ev.response = .error error) →
          Run build (events.filter keep) t :=
  ⟨fun _ _ hRefused => run.state_of_refused hRefused, fun keep hRefused => run.filter keep hRefused⟩

namespace Sample

def refused : Event pair :=
  (Event.of? .bare third.after (.release ⟨0x1000⟩)).get (by decide +kernel)

theorem run_refused : Run .bare [refused, third, second, first] refused.after :=
  .step run_three (Option.some_get _).symm

end Sample

theorem refusals_leave_no_mark_released :
    Run .bare [Sample.refused, Sample.third, Sample.second, Sample.first] Sample.refused.after ∧
      Sample.refused.response.isOk = false ∧
      Run .bare [Sample.third, Sample.second, Sample.first] Sample.refused.after := by
  obtain ⟨-, hFilter⟩ := refusals_leave_no_mark Sample.run_refused
  have hRefused : Sample.refused.response.isOk = false := by decide +kernel
  have hThird : Sample.third.response.isOk := by decide +kernel
  have hSecond : Sample.second.response.isOk := by decide +kernel
  have hFirst : Sample.first.response.isOk := by decide +kernel
  have hRun := hFilter (fun ev => ev.response.isOk) fun ev _ hDropped => by
    cases hResponse : ev.response with
    | error error => exact ⟨error, rfl⟩
    | ok answer => simp [hResponse, Except.isOk, Except.toBool] at hDropped
  simp only [List.filter_cons, hRefused, hThird, hSecond, hFirst, List.filter_nil] at hRun
  exact ⟨Sample.run_refused, hRefused, hRun⟩

end Supervisor.Table
