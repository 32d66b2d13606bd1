import Supervisor.Proofs.Table.Creation
import Supervisor.Proofs.Table.Dispatch

/-! What each command does to a table. `explained` says that it does just the deeds that can be read
off the command and its answer. -/

namespace Supervisor.Table

open Effect

variable {c : Capacity} {t t' : Table c} {slot : Nat} {e : Environment} {free : List Nat}
  {build : Build}

/-- A command that was carried out, with the tables before and after it. -/
structure Event (c : Capacity) where
  before : Table c
  command : Command
  response : Except Error Answer
  after : Table c

namespace Event

/-- The event of a command, unless it panics. -/
def of? (build : Build) (t : Table c) (command : Command) : Option (Event c) :=
  let outcome := (command.perform build).outcome t
  match outcome.result with
  | .ok answer => some ⟨t, command, .ok answer, outcome.state⟩
  | .error (.refused error) => some ⟨t, command, .error error, outcome.state⟩
  | .error (.panicked _) => none

/-- The head of the free list is given to a tenant. -/
def taking (ev : Event c) (tenant : Tenant) : List Action :=
  [.take (ev.before.freeHead.getD 0) tenant]

/-- The slots taken and given back, as the command and its answer tell. -/
def actions (ev : Event c) : List Action :=
  match ev.command, ev.response with
  | .reset, .ok _ => [.reset]
  | .allocate parent kind, .ok (.issued handle) => ev.taking ⟨handle, parent, kind⟩
  | .create _ kind _ _, .ok (.issued handle) => ev.taking ⟨handle, .reserved, kind⟩
  | .release target, .ok _ => (ev.before.named? target).toList.map .give
  | .destroy target, .ok (.destroyed .releasedCurrent) =>
      (ev.before.named? target).toList.map .give
  | .dispatch target, .ok _ => (ev.before.reapedBy target).map .give
  | _, _ => []

/-- All that was done to the slots, as the command and its answer tell. -/
def deeds (build : Build) (ev : Event c) : List Deed :=
  let t := ev.before
  let slot := t.freeHead.getD 0
  match ev.command, ev.response with
  | .reset, .ok _ => [.reset]
  | .allocate parent kind, .ok (.issued handle) =>
      [.take slot (.fresh build t.stackTop handle parent kind)]
  | .create file kind _ _, .ok (.issued handle) =>
      let e := Environment.fresh build t.stackTop handle .reserved kind
      [.take slot { e with frame := e.frame.set .rip (entryOf file) }]
  | .release target, .ok _ => (t.named? target).toList.map .give
  | .destroy target, .ok (.destroyed .releasedCurrent) => (t.named? target).toList.map .give
  | .destroy target, .ok (.destroyed .dying) =>
      (t.named? target).toList.map (.move · .dying)
  | .dispatch target, .ok answer => t.dispatchDeeds target answer
  | .setStatus target _ status, .ok _ =>
      (t.named? target).toList.map (.move · status)
  | .setCurrentStatus status, .ok _ => t.current.toList.map (.move · status)
  | .editFrame target _ edit, .ok _ => (t.named? target).toList.map (.edit · edit)
  | .editCurrentFrame edit, .ok _ => t.current.toList.map (.edit · edit)
  | _, _ => []

/-- The actions of an event are those among its deeds. -/
theorem filterMap_deeds (build : Build) (ev : Event c) :
    (ev.deeds build).filterMap Deed.action? = ev.actions := by
  obtain ⟨t, command, response, t'⟩ := ev
  cases response with
  | error error => cases command <;> rfl
  | ok answer =>
      cases command with
      | reset => rfl
      | allocate parent kind => cases answer <;> rfl
      | create file kind limit resolver => cases answer <;> rfl
      | release target => exact filterMap_give _
      | destroy target =>
          cases answer with
          | destroyed outcome =>
              cases outcome with
              | dying => exact filterMap_record _ (fun _ => rfl) _
              | releasedCurrent => exact filterMap_give _
          | _ => rfl
      | dispatch target =>
          have hEnter := filterMap_record .enter (fun _ => rfl) (t.enteredBy target answer)
          have hMove := filterMap_record (.move · .runnable) (fun _ => rfl) t.demoted?.toList
          simp only [deeds, actions, dispatchDeeds, List.filterMap_append, filterMap_give, hEnter,
            hMove, List.nil_append, List.append_nil]
      | lookup target checked => rfl
      | setStatus target checked status => exact filterMap_record _ (fun _ => rfl) _
      | setCurrentStatus status => exact filterMap_record _ (fun _ => rfl) _
      | editFrame target checked edit => exact filterMap_record _ (fun _ => rfl) _
      | editCurrentFrame edit => exact filterMap_record _ (fun _ => rfl) _

theorem command_of? {ev : Event c} {command : Command} (hStep : of? build t command = some ev) :
    ev.command = command := by
  simp only [of?] at hStep
  split at hStep <;> cases hStep <;> rfl

theorem before_of? {ev : Event c} {command : Command} (hStep : of? build t command = some ev) :
    ev.before = t := by
  simp only [of?] at hStep
  split at hStep <;> cases hStep <;> rfl

/-- A command that ends without a panic is an event. -/
theorem exists_of? {command : Command} {writes : List Write} {r : Except (Stop Error) Answer}
    (hEnds : (command.perform build).Ends t writes r t')
    (hGoes : ∀ cause, r ≠ .error (.panicked cause)) :
    ∃ ev, of? build t command = some ev ∧ ev.after = t' := by
  unfold of?
  rw [hEnds.outcome_eq]
  match r with
  | .ok answer => exact ⟨_, rfl, rfl⟩
  | .error (.refused error) => exact ⟨_, rfl, rfl⟩
  | .error (.panicked cause) => exact absurd rfl (hGoes cause)

theorem deeds_refused (build : Build) (t t' : Table c) (command : Command) (error : Error) :
    deeds build ⟨t, command, .error error, t'⟩ = [] := by
  cases command <;> rfl

end Event

/-- The command is explained: it ends with an answer and has made the changes that the answer tells
of, or is refused and has changed nothing, or panics. -/
def Explained (build : Build) (t : Table c) (command : Command) : Prop :=
  ∃ writes r t', (command.perform build).Ends t writes r t' ∧
    (∀ answer, r = .ok answer → Change t (Event.deeds build ⟨t, command, .ok answer, t'⟩) t') ∧
    ∀ error, r = .error (.refused error) → t' = t

section Explained

variable {command : Command} {writes : List Write}

theorem explained_ok {answer : Answer}
    (hEnds : (command.perform build).Ends t writes (.ok answer) t')
    (hChange : Change t (Event.deeds build ⟨t, command, .ok answer, t'⟩) t') :
    Explained build t command := by
  refine ⟨writes, .ok answer, t', hEnds, ?_, ?_⟩
  · rintro _ ⟨⟩
    exact hChange
  · rintro error ⟨⟩

theorem explained_refused {error : Error}
    (hEnds : (command.perform build).Ends t writes (.error (.refused error)) t) :
    Explained build t command := by
  refine ⟨writes, .error (.refused error), t, hEnds, ?_, fun _ _ => rfl⟩
  rintro answer ⟨⟩

theorem explained_panicked {cause : Panic}
    (hEnds : (command.perform build).Ends t writes (.error (.panicked cause)) t') :
    Explained build t command := by
  refine ⟨writes, .error (.panicked cause), t', hEnds, ?_, ?_⟩
  · rintro answer ⟨⟩
  · rintro error ⟨⟩

/-- The event of an explained command makes the changes of its deeds, and none if it is refused. -/
theorem Explained.event {ev : Event c} (h : Explained build t command)
    (hStep : Event.of? build t command = some ev) :
    Change t (ev.deeds build) ev.after ∧ ∀ error, ev.response = .error error → ev.after = t := by
  obtain ⟨writes, r, t', hEnds, hChange, hRefused⟩ := h
  rw [Event.of?, hEnds.outcome_eq] at hStep
  match r with
  | .ok answer =>
      cases hStep
      exact ⟨hChange answer rfl, fun error hError => by cases hError⟩
  | .error (.refused error) =>
      cases hStep
      rw [hRefused error rfl, Event.deeds_refused]
      exact ⟨.keep t, fun _ _ => rfl⟩
  | .error (.panicked cause) => cases hStep

end Explained

/-- An allocation is refused, or there is a slot at the head of the free list and room for a
stack. -/
theorem allocate_cases (sound : t.Sound free) (build : Build) (parent : Handle) (kind : Kind) :
    (∃ error, (allocate build parent kind).Ends t [] (.error (.refused error)) t) ∨
      ∃ slot e rest,
        free = slot :: rest ∧ t.get? slot = some e ∧ Layout.stackSize ≤ t.stackTop := by
  cases free with
  | nil => exact .inl ⟨_, allocate_full sound.linked.head_eq⟩
  | cons slot rest =>
      by_cases hRoom : Layout.stackSize ≤ t.stackTop
      · obtain ⟨e, hGet⟩ := sound.linked.exists_get? slot (List.mem_cons_self ..)
        exact .inr ⟨slot, e, rest, rfl, hGet, hRoom⟩
      · exact .inl ⟨_, allocate_exhausted sound.linked.head_eq hRoom⟩

theorem explained_allocate (sound : t.Sound free) (parent : Handle) (kind : Kind) :
    Explained build t (.allocate parent kind) := by
  rcases allocate_cases sound build parent kind with
    ⟨error, hEnds⟩ | ⟨slot, e, rest, rfl, hGet, hRoom⟩
  · exact explained_refused hEnds.bind_stop
  · have hHead : t.freeHead = some slot := sound.linked.head_eq
    refine explained_ok ((allocate_ends sound hGet hRoom).andThen (Ends.pure _ _)) ?_
    simp only [Event.deeds, hHead, Option.getD_some]
    exact .take hHead hGet hRoom rfl Status.noConfusion

/-- A creation is refused, or the file is loaded and there is a slot and room for a stack. -/
theorem create_cases (sound : t.Sound free) (build : Build) (file : Buffer) (kind : Kind)
    (limit : UInt64) (resolver : Loading.Resolver) :
    (∃ writes error, (create build file kind limit resolver).Ends t writes
      (.error (.refused error)) t) ∨
    ∃ writes span slot e rest, free = slot :: rest ∧ t.get? slot = some e ∧
      Layout.stackSize ≤ t.stackTop ∧
      (loading build file limit resolver).Ends () writes (.ok span) () := by
  obtain ⟨writes, loaded, hLoad⟩ :=
    Loading.loadExecutable_quiet file limit (if build.sharedSpace then some resolver else none)
  cases loaded with
  | error error => exact .inl ⟨_, _, create_rejects hLoad⟩
  | ok span =>
      rcases allocate_cases sound build .reserved kind with
        ⟨error, hEnds⟩ | ⟨slot, e, rest, hFree, hGet, hRoom⟩
      · exact .inl ⟨_, _, create_refuses hLoad hEnds⟩
      · exact .inr ⟨_, _, slot, e, rest, hFree, hGet, hRoom, hLoad⟩

theorem explained_create (sound : t.Sound free) (file : Buffer) (kind : Kind) (limit : UInt64)
    (resolver : Loading.Resolver) : Explained build t (.create file kind limit resolver) := by
  rcases create_cases sound build file kind limit resolver with
    ⟨writes, error, hEnds⟩ | ⟨writes, span, slot, e, rest, rfl, hGet, hRoom, hLoad⟩
  · exact explained_refused hEnds.bind_stop
  · have hHead : t.freeHead = some slot := sound.linked.head_eq
    refine explained_ok ((create_ends sound hGet hRoom hLoad).bind (Ends.pure _ _)) ?_
    simp only [Event.deeds, hHead, Option.getD_some, ← entry_of_loading hLoad]
    exact .take hHead hGet hRoom rfl Status.noConfusion

theorem explained_release (sound : t.Sound free) (target : Handle) :
    Explained build t (.release target) := by
  rcases release_cases sound target with ⟨-, hEnds⟩ | ⟨slot, e, hNamed, hGet, hLive, hEnds⟩
  · exact explained_refused hEnds.bind_stop
  · refine explained_ok (hEnds.andThen (Ends.pure _ _)) ?_
    simp only [Event.deeds, hNamed, Option.toList_some, List.map_cons, List.map_nil]
    exact .give hGet hLive

theorem explained_destroy (sound : t.Sound free) (target : Handle) :
    Explained build t (.destroy target) := by
  rcases destroy_cases sound target with
    ⟨-, hEnds⟩ | ⟨slot, e, hNamed, hGet, hLive, ⟨-, hEnds⟩ | ⟨-, hEnds⟩⟩
  · exact explained_refused hEnds.bind_stop
  · refine explained_ok (hEnds.andThen (Ends.pure _ _)) ?_
    simp only [Event.deeds, hNamed, Option.toList_some, List.map_cons, List.map_nil]
    exact .move hGet hLive Status.noConfusion (Status.allows_dying hLive)
  · refine explained_ok (hEnds.andThen (Ends.pure _ _)) ?_
    simp only [Event.deeds, hNamed, Option.toList_some, List.map_cons, List.map_nil]
    exact .give hGet hLive

theorem explained_dispatch (sound : t.Sound free) (target : Handle) :
    Explained build t (.dispatch target) := by
  rcases dispatch_cases sound target with
    ⟨error, hEnds⟩ | ⟨cause, t', hEnds⟩ | ⟨next, t', hEnds, hChange⟩
  · exact explained_refused hEnds.bind_stop
  · exact explained_panicked hEnds.bind_stop
  · exact explained_ok (hEnds.andThen (Ends.pure _ _)) hChange

theorem explained_lookup (sound : t.Sound free) (target : Handle) (checked : Bool) :
    Explained build t (.lookup target checked) := by
  cases hReach : t.reachable? target checked with
  | none => exact explained_refused (resolve_stops sound hReach _).bind_stop
  | some slot =>
      obtain ⟨e, hGet, _⟩ := sound.named_live (named?_of_reachable? hReach)
      exact explained_ok ((lookup_ends sound hReach hGet).andThen (Ends.pure _ _)) (.keep t)

theorem explained_setStatus (sound : t.Sound free) (target : Handle) (checked : Bool)
    (status : Status) : Explained build t (.setStatus target checked status) := by
  cases hReach : t.reachable? target checked with
  | none => exact explained_refused (resolve_stops sound hReach _).bind_stop
  | some slot =>
      have hNamed := named?_of_reachable? hReach
      obtain ⟨e, hGet, hLive⟩ := sound.named_live hNamed
      rcases setStatusOf_ends hGet status with ⟨cause, hEnds⟩ | ⟨⟨hNew, hAllows⟩, hEnds⟩
      · exact explained_panicked (resolve_finds sound hReach hEnds).bind_stop
      · refine explained_ok ((resolve_finds sound hReach hEnds).andThen (Ends.pure _ _)) ?_
        simp only [Event.deeds, hNamed, Option.toList_some, List.map_cons, List.map_nil]
        exact .move hGet hLive hNew fun _ => hAllows

theorem explained_setCurrentStatus (sound : t.Sound free) (status : Status) :
    Explained build t (.setCurrentStatus status) := by
  cases hCurrent : t.current with
  | none =>
      have hEnds : (setCurrentStatus status).Ends t [] (.ok false) t := by
        apply (ends_state t).andThen
        rw [hCurrent]
        exact Ends.pure false t
      refine explained_ok (hEnds.andThen (Ends.pure _ t)) ?_
      simp only [Event.deeds, hCurrent]
      exact .keep t
  | some slot =>
      obtain ⟨e, hGet, hLive⟩ := sound.current_live hCurrent
      rcases setStatusOf_ends hGet status with ⟨cause, hStop⟩ | ⟨⟨hNew, hAllows⟩, hStored⟩
      · have hEnds : (setCurrentStatus status).Ends t [] (.error (.panicked cause)) t := by
          apply (ends_state t).andThen
          rw [hCurrent]
          exact hStop.bind_stop
        exact explained_panicked hEnds.bind_stop
      · have hEnds : (setCurrentStatus status).Ends t [] (.ok true)
            (t.put slot { e with status }) := by
          apply (ends_state t).andThen
          rw [hCurrent]
          exact hStored.andThen (Ends.pure true _)
        refine explained_ok (hEnds.andThen (Ends.pure _ _)) ?_
        simp only [Event.deeds, hCurrent, Option.toList_some, List.map_cons, List.map_nil]
        exact .move hGet hLive hNew fun _ => hAllows

theorem explained_editFrame (sound : t.Sound free) (target : Handle) (checked : Bool)
    (edit : Frame → Frame) : Explained build t (.editFrame target checked edit) := by
  cases hReach : t.reachable? target checked with
  | none => exact explained_refused (resolve_stops sound hReach _).bind_stop
  | some slot =>
      have hNamed := named?_of_reachable? hReach
      obtain ⟨e, hGet, hLive⟩ := sound.named_live hNamed
      refine explained_ok ((editFrame_ends sound edit hReach hGet).andThen (Ends.pure _ _)) ?_
      simp only [Event.deeds, hNamed, Option.toList_some, List.map_cons, List.map_nil]
      exact .edit hGet hLive

theorem explained_editCurrentFrame (sound : t.Sound free) (edit : Frame → Frame) :
    Explained build t (.editCurrentFrame edit) := by
  cases hCurrent : t.current with
  | none =>
      have hEnds : (editCurrentFrame edit).Ends t [] (.ok false) t := by
        apply (ends_state t).andThen
        rw [hCurrent]
        exact Ends.pure false t
      refine explained_ok (hEnds.andThen (Ends.pure _ t)) ?_
      simp only [Event.deeds, hCurrent]
      exact .keep t
  | some slot =>
      obtain ⟨e, hGet, hLive⟩ := sound.current_live hCurrent
      refine explained_ok ((editCurrentFrame_ends edit hCurrent hGet).andThen (Ends.pure _ _)) ?_
      simp only [Event.deeds, hCurrent, Option.toList_some, List.map_cons, List.map_nil]
      exact .edit hGet hLive

/-- In a sound table every command is explained. -/
theorem explained (sound : t.Sound free) (command : Command) : Explained build t command := by
  cases command with
  | reset => exact explained_ok ((ends_update _ t).andThen (Ends.pure _ _)) (.reset t)
  | allocate parent kind => exact explained_allocate sound parent kind
  | create file kind limit resolver => exact explained_create sound file kind limit resolver
  | release target => exact explained_release sound target
  | destroy target => exact explained_destroy sound target
  | dispatch target => exact explained_dispatch sound target
  | lookup target checked => exact explained_lookup sound target checked
  | setStatus target checked status => exact explained_setStatus sound target checked status
  | setCurrentStatus status => exact explained_setCurrentStatus sound status
  | editFrame target checked edit => exact explained_editFrame sound target checked edit
  | editCurrentFrame edit => exact explained_editCurrentFrame sound edit

end Table

end Supervisor
