import Supervisor.Proofs.Table.Lifecycle

/-! What can be done to the slots of a table, in a few kinds of change. An invariant is shown for
each kind and holds for every command. Lists of actions and deeds have the latest first. -/

namespace Supervisor

/-- What stays of an environment from its allocation to its release. -/
structure Tenant where
  handle : Handle
  parent : Handle
  kind : Kind
deriving DecidableEq

def Environment.tenant (e : Environment) : Tenant := ⟨e.handle, e.parent, e.kind⟩

namespace Table

variable {c : Capacity} {t t' : Table c} {free : List Nat}

inductive Action where
  | reset
  /-- The slot comes off the free list. -/
  | take (slot : Nat) (tenant : Tenant)
  /-- The slot goes back on the free list. -/
  | give (slot : Nat)
deriving DecidableEq

/-- What is done to a slot, down to the changes of a record in use. -/
inductive Deed where
  | reset
  /-- The slot comes off the free list with a new record. -/
  | take (slot : Nat) (e : Environment)
  /-- The slot goes back on the free list. -/
  | give (slot : Nat)
  /-- The environment is put in a status, which may be the one it is in. -/
  | move (slot : Nat) (status : Status)
  /-- The saved frame is changed. -/
  | edit (slot : Nat) (change : Frame → Frame)
  /-- The environment becomes the current one and runs. -/
  | enter (slot : Nat)

/-- The action that a deed amounts to, if it is more than a change of a record. -/
def Deed.action? : Deed → Option Action
  | .reset => some .reset
  | .take slot e => some (.take slot e.tenant)
  | .give slot => some (.give slot)
  | .move _ _ | .edit _ _ | .enter _ => none

@[simp] theorem Deed.action?_eq_give {deed : Deed} {slot : Nat} :
    deed.action? = some (.give slot) ↔ deed = .give slot := by
  cases deed <;> simp [action?]

@[simp] theorem Deed.action?_eq_reset {deed : Deed} :
    deed.action? = some .reset ↔ deed = .reset := by
  cases deed <;> simp [action?]

/-- Actions and deeds agree on what is given back. -/
theorem give_mem_filterMap {log : List Deed} {slot : Nat} :
    .give slot ∈ log.filterMap Deed.action? ↔ .give slot ∈ log := by
  simp

/-- Actions and deeds agree on whether there was a reset. -/
theorem reset_mem_filterMap {log : List Deed} :
    .reset ∈ log.filterMap Deed.action? ↔ .reset ∈ log := by
  simp

theorem filterMap_give (slots : List Nat) :
    (slots.map Deed.give).filterMap Deed.action? = slots.map Action.give := by
  simp [List.filterMap_map, Function.comp_def, Deed.action?]

/-- Deeds that change records only are no actions. -/
theorem filterMap_record (deed : Nat → Deed) (hRecord : ∀ slot, (deed slot).action? = none)
    (slots : List Nat) : (slots.map deed).filterMap Deed.action? = [] := by
  simp [List.filterMap_map, hRecord]

/-- Deeds that leave alone what is computed from deeds. -/
theorem foldr_idle {α : Type} {f : Deed → α → α} (deed : Nat → Deed)
    (hIdle : ∀ slot a, f (deed slot) a = a) (slots : List Nat) (a : α) :
    (slots.map deed).foldr f a = a := by
  induction slots with
  | nil => rfl
  | cons slot slots ih => rw [List.map_cons, List.foldr_cons, hIdle, ih]

/-- The first table becomes the second by these deeds. -/
inductive Change : Table c → List Deed → Table c → Prop where
  | keep (t : Table c) : Change t [] t
  | reset (t : Table c) : Change t [.reset] new
  | take {t : Table c} {slot : Nat} {e e' : Environment} (hHead : t.freeHead = some slot)
      (hGet : t.get? slot = some e) (hRoom : Layout.stackSize ≤ t.stackTop)
      (hHandle : e'.handle = e.handle.successor c slot) (hLive : e'.status ≠ .free) :
      Change t [.take slot e'] (t.granted slot e.link e')
  | give {t : Table c} {slot : Nat} {e : Environment} (hGet : t.get? slot = some e)
      (hLive : e.status ≠ .free) : Change t [.give slot] (t.freed slot e)
  | move {t : Table c} {slot : Nat} {e : Environment} {status : Status}
      (hGet : t.get? slot = some e) (hLive : e.status ≠ .free) (hLive' : status ≠ .free)
      (hStep : e.status ≠ status → e.status.allows status) :
      Change t [.move slot status] (t.put slot { e with status })
  | edit {t : Table c} {slot : Nat} {e : Environment} {change : Frame → Frame}
      (hGet : t.get? slot = some e) (hLive : e.status ≠ .free) :
      Change t [.edit slot change] (t.put slot { e with frame := change e.frame })
  | enter {t : Table c} {slot : Nat} {e : Environment} (hGet : t.get? slot = some e)
      (hRunnable : e.status = .runnable) : Change t [.enter slot] (t.entered slot e)
  | trans {t t' t'' : Table c} {first second : List Deed} (hFirst : Change t first t')
      (hSecond : Change t' second t'') : Change t (second ++ first) t''

/-- The free list after an action. -/
def Action.restack (c : Capacity) (action : Action) (free : List Nat) : List Nat :=
  match action with
  | .reset => List.range c.size
  | .take _ _ => free.tail
  | .give slot => slot :: free

/-- Changes keep a table sound, and the free list changes as the actions tell. -/
theorem Change.sound {log : List Deed} (change : Change t log t') (sound : t.Sound free) :
    t'.Sound ((log.filterMap Deed.action?).foldr (Action.restack c) free) := by
  induction change generalizing free with
  | keep t => exact sound
  | reset t => exact sound_new c.size_pos
  | take hHead hGet _ _ hLive =>
      cases free with
      | nil => cases hHead.symm.trans sound.linked.head_eq
      | cons slot rest =>
          cases hHead.symm.trans sound.linked.head_eq
          exact sound.granted hGet hLive
  | give hGet hLive => exact sound.freed hGet hLive
  | move hGet hLive hLive' _ => exact sound.put hGet hLive hLive'
  | edit hGet hLive => exact sound.put hGet hLive hLive
  | enter hGet hRunnable => exact sound.entered hGet (by simp [hRunnable])
  | trans _ _ ihFirst ihSecond =>
      rw [List.filterMap_append, List.foldr_append]
      exact ihSecond (ihFirst sound)

/-- As long as its slot is not given back, an environment stays in its slot. Only an edit changes
its frame, and once it is moved to dying it stays dying. -/
theorem Change.stays {slot : Nat} {e : Environment} {log : List Deed} (change : Change t log t')
    (sound : t.Sound free) (hReset : .reset ∉ log) (hKept : .give slot ∉ log)
    (hGet : t.get? slot = some e) (hLive : e.status ≠ .free) :
    ∃ e', t'.get? slot = some e' ∧ e'.tenant = e.tenant ∧ e'.status ≠ .free ∧
      ((∀ change, .edit slot change ∉ log) → e'.frame = e.frame) ∧
      (e.status = .dying ∨ .move slot .dying ∈ log → e'.status = .dying) := by
  induction change generalizing free e with
  | keep t => exact ⟨e, hGet, rfl, hLive, fun _ => rfl, by simp⟩
  | reset t => exact absurd (List.mem_cons_self ..) hReset
  | @take t other old new hHead hOld hRoom hHandle hNew =>
      have hNe : other ≠ slot := by
        rintro rfl
        have hMem : other ∈ free := List.mem_of_mem_head? (sound.linked.head_eq.symm.trans hHead)
        exact sound.not_mem hGet hLive hMem
      exact ⟨e, (get?_put_of_ne hNe).trans hGet, rfl, hLive, fun _ => rfl, by simp⟩
  | @give t other old hOld hOldLive =>
      have hNe : other ≠ slot := by
        rintro rfl
        exact hKept (List.mem_cons_self ..)
      exact ⟨e, (get?_put_of_ne hNe).trans hGet, rfl, hLive, fun _ => rfl, by simp⟩
  | @move t other old status hOld hOldLive hNewLive hStep =>
      by_cases hSame : other = slot
      · subst hSame
        cases hGet.symm.trans hOld
        refine ⟨_, get?_put_same hGet, rfl, hNewLive, fun _ => rfl, ?_⟩
        rintro (hDying | hMoved)
        · exact Status.dying_of_step hDying hStep hNewLive
        · exact (Deed.move.inj (List.mem_singleton.mp hMoved)).2.symm
      · exact ⟨e, (get?_put_of_ne hSame).trans hGet, rfl, hLive, fun _ => rfl,
          by simp [Ne.symm hSame]⟩
  | @edit t other old change hOld hOldLive =>
      by_cases hSame : other = slot
      · subst hSame
        cases hGet.symm.trans hOld
        refine ⟨_, get?_put_same hGet, rfl, hLive, fun hUnedited => ?_, by simp⟩
        exact absurd (List.mem_cons_self ..) (hUnedited change)
      · exact ⟨e, (get?_put_of_ne hSame).trans hGet, rfl, hLive, fun _ => rfl, by simp⟩
  | @enter t other old hOld hRunnable =>
      by_cases hSame : other = slot
      · subst hSame
        cases hGet.symm.trans hOld
        exact ⟨_, get?_put_same hGet, rfl, Status.noConfusion, fun _ => rfl, by simp [hRunnable]⟩
      · exact ⟨e, (get?_put_of_ne hSame).trans hGet, rfl, hLive, fun _ => rfl, by simp⟩
  | @trans t middle t' first second hFirst hSecond ihFirst ihSecond =>
      simp only [List.mem_append, not_or] at hReset hKept
      obtain ⟨e', hGet', hTenant', hLive', hFrame', hDying'⟩ :=
        ihFirst sound hReset.2 hKept.2 hGet hLive
      obtain ⟨e'', hGet'', hTenant'', hLive'', hFrame'', hDying''⟩ :=
        ihSecond (hFirst.sound sound) hReset.1 hKept.1 hGet' hLive'
      refine ⟨e'', hGet'', hTenant''.trans hTenant', hLive'', fun hUnedited => ?_, ?_⟩
      · have hFirstUnedited := hFrame' fun change hMem =>
          hUnedited change (List.mem_append_right _ hMem)
        exact (hFrame'' fun change hMem =>
          hUnedited change (List.mem_append_left _ hMem)).trans hFirstUnedited
      rw [List.mem_append]
      rintro (hOld | hNew | hMoved)
      · exact hDying'' (.inl (hDying' (.inl hOld)))
      · exact hDying'' (.inr hNew)
      · exact hDying'' (.inl (hDying' (.inr hMoved)))

end Table

end Supervisor
