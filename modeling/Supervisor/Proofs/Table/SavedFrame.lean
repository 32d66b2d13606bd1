import Supervisor.Proofs.Table.Run

/-! The frame that an environment goes on from. Its record holds what was stored there last,
whatever other environments did in between. -/

namespace Supervisor.Table

open Effect

variable {c : Capacity} {build : Build} {t t' : Table c} {events : List (Event c)} {slot : Nat}
  {e : Environment} {free : List Nat} {log : List Deed} {last : Option Frame}

/-- The frame stored in a slot after an event, if `last` was stored there before. Only allocations,
creations and changes of a frame store one. -/
def Event.stored (build : Build) (slot : Nat) (ev : Event c) (last : Option Frame) :
    Option Frame :=
  let t := ev.before
  match ev.command, ev.response with
  | .allocate _ kind, .ok (.issued _) =>
      if t.freeHead.getD 0 = slot then some (.initial (.initial build kind) t.stackTop) else last
  | .create file kind _ _, .ok (.issued _) =>
      if t.freeHead.getD 0 = slot then
        some ((Frame.initial (.initial build kind) t.stackTop).set .rip (entryOf file))
      else last
  | .editFrame target _ edit, .ok _ =>
      if t.named? target = some slot then last.map edit else last
  | .editCurrentFrame edit, .ok _ => if t.current = some slot then last.map edit else last
  | _, _ => last

/-- The frame that a run stored in a slot last. -/
def lastStored (build : Build) (slot : Nat) (events : List (Event c)) : Option Frame :=
  events.foldr (Event.stored build slot) none

/-- The frame stored in a slot after a deed. -/
def Deed.stored (slot : Nat) : Deed → Option Frame → Option Frame
  | .take other e, last => if other = slot then some e.frame else last
  | .edit other change, last => if other = slot then last.map change else last
  | _, last => last

/-- One change of the frame that is stored in a slot, if there is such a slot. -/
theorem foldr_stored_edit (other : Option Nat) (change : Frame → Frame) :
    (other.toList.map (Deed.edit · change)).foldr (Deed.stored slot) last =
      if other = some slot then last.map change else last := by
  cases other with
  | none => rfl
  | some other => simp [Deed.stored]

/-- The deeds of an event store what its command and answer tell. -/
theorem Event.foldr_deeds (build : Build) (slot : Nat) (ev : Event c) (last : Option Frame) :
    (ev.deeds build).foldr (Deed.stored slot) last = ev.stored build slot last := by
  obtain ⟨t, command, response, t'⟩ := ev
  cases response with
  | error error => rw [deeds_refused]; cases command <;> rfl
  | ok answer =>
      cases command with
      | reset => rfl
      | allocate parent kind => cases answer <;> rfl
      | create file kind limit resolver => cases answer <;> rfl
      | release target => exact foldr_idle _ (fun _ _ => rfl) _ _
      | destroy target =>
          cases answer with
          | destroyed outcome =>
              cases outcome with
              | dying => exact foldr_idle _ (fun _ _ => rfl) _ _
              | releasedCurrent => exact foldr_idle _ (fun _ _ => rfl) _ _
          | _ => rfl
      | dispatch target =>
          simp only [deeds, dispatchDeeds, stored, List.foldr_append]
          rw [foldr_idle _ (fun _ _ => rfl), foldr_idle _ (fun _ _ => rfl),
            foldr_idle _ (fun _ _ => rfl)]
      | lookup target checked => rfl
      | setStatus target checked status => exact foldr_idle _ (fun _ _ => rfl) _ _
      | setCurrentStatus status => exact foldr_idle _ (fun _ _ => rfl) _ _
      | editFrame target checked edit => exact foldr_stored_edit _ edit
      | editCurrentFrame edit => exact foldr_stored_edit _ edit

/-- Every record in use holds the frame that was stored for it last. -/
def Keeps (t : Table c) (stored : Nat → Option Frame) : Prop :=
  ∀ slot e, t.get? slot = some e → e.status ≠ .free → stored slot = some e.frame

/-- A record that is replaced by one with the same frame keeps what was stored. -/
theorem Keeps.put {stored : Nat → Option Frame} {e' : Environment} (keeps : t.Keeps stored)
    (hGet : t.get? slot = some e) (hLive : e.status ≠ .free) (hFrame : e'.frame = e.frame) :
    (t.put slot e').Keeps stored := by
  intro other e'' hOther hLive''
  rcases get?_put_cases hGet hOther with ⟨rfl, rfl⟩ | ⟨-, hOld⟩
  · rw [hFrame]
    exact keeps slot e hGet hLive
  · exact keeps other e'' hOld hLive''

/-- No record of the new table is in use. -/
theorem keeps_new (stored : Nat → Option Frame) : (new : Table c).Keeps stored := by
  intro slot e hGet hLive
  rw [get?_new (lt_of_get? hGet)] at hGet
  cases hGet
  exact absurd rfl hLive

/-- Changes keep the stored frames in the records, and their deeds tell what was stored. -/
theorem Change.keeps {stored : Nat → Option Frame} (change : Change t log t')
    (keeps : t.Keeps stored) :
    t'.Keeps fun slot => log.foldr (Deed.stored slot) (stored slot) := by
  induction change generalizing stored with
  | keep t => exact keeps
  | reset t => exact keeps_new _
  | @take t slot e e' hHead hGet hRoom hHandle hLive =>
      intro other e'' hOther hLive''
      rcases get?_put_cases hGet hOther with ⟨rfl, rfl⟩ | ⟨hNe, hOld⟩
      · simp [Deed.stored]
      · simpa [Deed.stored, hNe] using keeps other e'' hOld hLive''
  | @give t slot e hGet hLive =>
      intro other e'' hOther hLive''
      rcases get?_put_cases hGet hOther with ⟨rfl, rfl⟩ | ⟨-, hOld⟩
      · exact absurd rfl hLive''
      · exact keeps other e'' hOld hLive''
  | move hGet hLive _ _ => exact keeps.put hGet hLive rfl
  | @edit t slot e change hGet hLive =>
      intro other e'' hOther hLive''
      rcases get?_put_cases hGet hOther with ⟨rfl, rfl⟩ | ⟨hNe, hOld⟩
      · simp [Deed.stored, keeps slot e hGet hLive]
      · simpa [Deed.stored, hNe] using keeps other e'' hOld hLive''
  | enter hGet hRunnable => exact keeps.put hGet (by simp [hRunnable]) rfl
  | trans _ _ ihFirst ihSecond =>
      simp only [List.foldr_append]
      exact ihSecond (ihFirst keeps)

/-- At the end of a run every record in use holds the frame that the run stored for it last. -/
theorem Run.keeps (run : Run build events t) :
    t.Keeps fun slot => lastStored build slot events := by
  induction run with
  | start => exact keeps_new _
  | @step events t command ev hRun hStep ih =>
      have hKept := ((explained hRun.sound command).event hStep).1.keeps ih
      simp only [Event.foldr_deeds] at hKept
      exact hKept

/-- A dispatch that enters goes on from the frame that was stored last for the environment that the
target names, and leaves it stored. -/
theorem Run.entered (run : Run build events t) {target : Handle} {frame : Frame}
    (hResult : ((dispatch target).outcome t).result = .ok (.enter frame)) :
    ∃ slot e, t.named? target = some slot ∧ lastStored build slot events = some frame ∧
      ((dispatch target).outcome t).state.current = some slot ∧
      ((dispatch target).outcome t).state.get? slot = some e ∧ e.frame = frame := by
  obtain ⟨slot, e, hNamed, hGet, hLive, -, hFrame, hCurrent, hAfter⟩ :=
    dispatch_entered run.sound hResult
  rw [← hFrame]
  exact ⟨slot, _, hNamed, run.keeps slot e hGet hLive, hCurrent, hAfter, rfl⟩

/-- The slot whose frame an event changes, if it changes one. -/
def Event.edited? (ev : Event c) : Option Nat :=
  match ev.command with
  | .editFrame target _ _ => ev.before.named? target
  | .editCurrentFrame _ => ev.before.current
  | _ => none

theorem Event.edited_of_mem {ev : Event c} {change : Frame → Frame}
    (hMem : .edit slot change ∈ ev.deeds build) : ev.edited? = some slot := by
  obtain ⟨t, command, response, t'⟩ := ev
  cases response with
  | error error =>
      rw [deeds_refused] at hMem
      cases hMem
  | ok answer =>
      cases command with
      | editFrame target checked edit =>
          simp only [deeds, List.mem_map, Option.mem_toList] at hMem
          obtain ⟨other, hNamed, hSame⟩ := hMem
          cases hSame
          exact hNamed
      | editCurrentFrame edit =>
          simp only [deeds, List.mem_map, Option.mem_toList] at hMem
          obtain ⟨other, hCurrent, hSame⟩ := hMem
          cases hSame
          exact hCurrent
      | allocate parent kind => cases answer <;> simp [deeds] at hMem
      | create file kind limit resolver => cases answer <;> simp [deeds] at hMem
      | destroy target =>
          cases answer with
          | destroyed outcome => cases outcome <;> simp [deeds] at hMem
          | _ => simp [deeds] at hMem
      | dispatch target => simp [deeds, dispatchDeeds] at hMem
      | _ => simp [deeds] at hMem

/-- Whatever a command does, an environment that it does not release and whose frame it does not
change is found with the same frame afterwards. -/
theorem Event.frame_kept {ev : Event c} {command : Command} (sound : t.Sound free)
    (hStep : Event.of? build t command = some ev) (hReset : .reset ∉ ev.actions)
    (hGive : .give slot ∉ ev.actions) (hEdited : ev.edited? ≠ some slot)
    (hGet : t.get? slot = some e) (hLive : e.status ≠ .free) :
    ∃ e', ev.after.get? slot = some e' ∧ e'.tenant = e.tenant ∧ e'.status ≠ .free ∧
      e'.frame = e.frame := by
  rw [← ev.filterMap_deeds build, reset_mem_filterMap] at hReset
  rw [← ev.filterMap_deeds build, give_mem_filterMap] at hGive
  obtain ⟨e', hGet', hTenant, hLive', hFrame, -⟩ :=
    ((explained sound command).event hStep).1.stays sound hReset hGive hGet hLive
  exact ⟨e', hGet', hTenant, hLive', hFrame fun change hMem => hEdited (edited_of_mem hMem)⟩

end Supervisor.Table
