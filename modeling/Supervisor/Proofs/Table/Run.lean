import Supervisor.Proofs.Table.Event
import Supervisor.Proofs.Table.History

/-! Runs of a table: any commands in any order, as long as none panics. What every change keeps
holds at the end of every run. -/

namespace Supervisor.Table

variable {c : Capacity} {build : Build} {t : Table c} {ev : Event c}
  {events later earlier : List (Event c)}

/-- The events of a run, the latest first, and the table that it ends with. -/
inductive Run (build : Build) : List (Event c) → Table c → Prop where
  | start : Run build [] new
  | step {events : List (Event c)} {t : Table c} {command : Command} {ev : Event c}
      (hRun : Run build events t) (hStep : Event.of? build t command = some ev) :
      Run build (ev :: events) ev.after

/-- All that a run did to the slots of the table, the latest action first. -/
def history (events : List (Event c)) : List Action := events.flatMap Event.actions

/-- All that a run did, down to the changes of records in use, the latest deed first. -/
def deeds (build : Build) (events : List (Event c)) : List Deed :=
  events.flatMap (Event.deeds build)

theorem filterMap_deeds (build : Build) (events : List (Event c)) :
    (deeds build events).filterMap Deed.action? = history events := by
  simp only [deeds, history, List.filterMap_flatMap, Event.filterMap_deeds]

/-- What holds of the new table and is kept by every change holds at the end of every run. -/
theorem Run.tracked (run : Run build events t) :
    t.Tracked (history events) ∧ Proper c (history events) := by
  induction run with
  | start => exact ⟨tracked_new, .nil⟩
  | @step events t command ev _ hStep ih =>
      obtain ⟨tracked, proper⟩ := ih
      have hChange := ((explained tracked.sound command).event hStep).1.tracked tracked proper
      rw [ev.filterMap_deeds] at hChange
      exact hChange

theorem Run.sound (run : Run build events t) : t.Sound (stack c (history events)) :=
  run.tracked.1.sound

/-- Each event of a run is that of a command which was carried out at the end of an earlier run. -/
theorem Run.until (run : Run build (later ++ ev :: earlier) t) :
    Run build earlier ev.before ∧ Event.of? build ev.before ev.command = some ev := by
  induction later generalizing t with
  | nil =>
      cases run with
      | step hRun hStep =>
          rw [Event.before_of? hStep, Event.command_of? hStep]
          exact ⟨hRun, hStep⟩
  | cons _ later ih =>
      cases run with
      | step hRun _ => exact ih hRun

/-- The events of a run determine the table that it ends with. -/
theorem Run.unique {t' : Table c} (run : Run build events t) (run' : Run build events t') :
    t = t' := by
  cases run with
  | start =>
      cases run'
      rfl
  | step _ _ =>
      cases run'
      rfl

/-- Between two points of a run the table changes by what was done from the one to the other. -/
theorem Run.between {t' : Table c} (before : Run build earlier t)
    (run : Run build (later ++ earlier) t') : Change t (deeds build later) t' := by
  induction later generalizing t' with
  | nil =>
      cases before.unique run
      exact .keep t
  | cons last later ih =>
      cases run with
      | step hRun hStep =>
          have hChange := ((explained hRun.sound _).event hStep).1
          exact (ih hRun).trans hChange

/-- The table at the end of a run comes from that before any of its events by what was done
since. -/
theorem Run.since (run : Run build (later ++ ev :: earlier) t) :
    Change ev.before (deeds build (later ++ [ev])) t :=
  run.until.1.between (List.append_cons later ev earlier ▸ run)

theorem reset_not_mem_history (hKept : ∀ ev ∈ events, ev.command ≠ .reset) :
    .reset ∉ history events := by
  intro hMem
  obtain ⟨ev, hEvent, hAction⟩ := List.mem_flatMap.mp hMem
  have hCommand := hKept ev hEvent
  unfold Event.actions at hAction
  split at hAction
  · next hReset _ => exact hCommand hReset
  all_goals simp [Event.taking] at hAction

namespace Sample

def pair : Capacity := ⟨1, by decide⟩

def first : Event pair :=
  (Event.of? .bare new (.allocate .reserved .user)).get (by decide +kernel)

def second : Event pair :=
  (Event.of? .bare first.after (.allocate .reserved .kernel)).get (by decide +kernel)

def third : Event pair :=
  (Event.of? .bare second.after (.release ⟨0x1000⟩)).get (by decide +kernel)

def fourth : Event pair :=
  (Event.of? .bare third.after (.allocate ⟨0x1001⟩ .user)).get (by decide +kernel)

theorem run_three : Run .bare [third, second, first] third.after :=
  .step (.step (.step .start (Option.some_get _).symm) (Option.some_get _).symm)
    (Option.some_get _).symm

theorem run_four : Run .bare [fourth, third, second, first] fourth.after :=
  .step run_three (Option.some_get _).symm

end Sample

end Supervisor.Table
