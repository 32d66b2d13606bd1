import Supervisor.Proofs.Outcome
import Supervisor.Table.Basic

/-! Reading and replacing the records of a table. A record that is replaced is found again, and all
others stay. -/

namespace Supervisor.Table

open Effect

variable {c : Capacity} {t : Table c} {slot other : Nat} {e e' : Environment}

/-- The table with the record of one slot replaced. -/
def put (t : Table c) (slot : Nat) (e : Environment) : Table c :=
  { t with slots := t.slots.setIfInBounds slot e }

theorem lt_of_get? (hGet : t.get? slot = some e) : slot < c.size := by
  obtain ⟨hLt, _⟩ := Vector.getElem?_eq_some_iff.mp hGet
  exact hLt

theorem exists_get? (t : Table c) (hLt : slot < c.size) : ∃ e, t.get? slot = some e :=
  ⟨t.slots[slot], Vector.getElem?_eq_getElem hLt⟩

@[simp] theorem put_current : (t.put slot e).current = t.current := rfl

theorem get?_put_same (hGet : t.get? slot = some e) : (t.put slot e').get? slot = some e' := by
  have hLt := lt_of_get? hGet
  simp [get?, put, hLt]

theorem get?_put_of_ne (hNe : slot ≠ other) : (t.put slot e).get? other = t.get? other := by
  simp [get?, put, hNe]

/-- A record read back is the new one of the slot that was written or the old one of another. -/
theorem get?_put_cases {e'' : Environment} (hGet : t.get? slot = some e)
    (hOther : (t.put slot e').get? other = some e'') :
    slot = other ∧ e' = e'' ∨ slot ≠ other ∧ t.get? other = some e'' := by
  by_cases hSame : slot = other
  · subst hSame
    exact .inl ⟨rfl, Option.some.inj ((get?_put_same hGet).symm.trans hOther)⟩
  · exact .inr ⟨hSame, (get?_put_of_ne hSame).symm.trans hOther⟩

@[simp] theorem put_put : (t.put slot e).put slot e' = t.put slot e' := by
  simp [put, Vector.setIfInBounds, Array.setIfInBounds_setIfInBounds]

theorem slotAt_reads (hGet : t.get? slot = some e) : (slotAt slot).Reads t (.ok e) := by
  apply (reads_state t).andThen
  rw [hGet]
  exact reads_pure e t

theorem slotAt_ends (hGet : t.get? slot = some e) : (slotAt slot).Ends t [] (.ok e) t :=
  (slotAt_reads hGet).ends

theorem setSlot_ends (t : Table c) (slot : Nat) (e : Environment) :
    (setSlot slot e).Ends t [] (.ok ()) (t.put slot e) :=
  ends_update _ t

theorem changeSlot_ends (hGet : t.get? slot = some e) (change : Environment → Environment) :
    (changeSlot slot change).Ends t [] (.ok ()) (t.put slot (change e)) :=
  (slotAt_ends hGet).andThen (setSlot_ends t slot (change e))

theorem moveTo_ends {status : Status} (hGet : t.get? slot = some e)
    (hAllows : e.status.allows status) :
    (moveTo slot status).Ends t [] (.ok ()) (t.put slot { e with status }) := by
  apply (slotAt_ends hGet).andThen
  rw [Status.transition, if_pos hAllows]
  exact (ends_orPanic _ t).andThen (setSlot_ends t slot _)

/-- A step that is not allowed leaves the table as it was. -/
theorem moveTo_ends_illegal {status : Status} (hGet : t.get? slot = some e)
    (hIllegal : ¬ e.status.allows status) :
    (moveTo slot status).Ends t [] (.error (.panicked (.illegalTransition e.status status))) t := by
  apply (slotAt_ends hGet).andThen
  rw [Status.transition, if_neg hIllegal]
  exact (ends_orPanic _ t).bind_stop

/-- The current slot, if there is one, is one of the table's. -/
def HasCurrent (t : Table c) : Prop := ∀ slot, t.current = some slot → ∃ e, t.get? slot = some e

theorem currentEnvironment_ends (hCurrent : t.HasCurrent) :
    currentEnvironment.Ends t [] (.ok (t.current.bind t.get?)) t := by
  apply (ends_state t).andThen
  cases hSlot : t.current with
  | none => exact Ends.pure none t
  | some slot =>
      obtain ⟨e, hGet⟩ := hCurrent slot hSlot
      simp only [Option.bind_some, hGet]
      exact (slotAt_ends hGet).andThen (Ends.pure (some e) t)

def currentHandle? (t : Table c) : Option Handle := (t.current.bind t.get?).map (·.handle)

theorem currentHandle?_of_none (hCurrent : t.current = none) : t.currentHandle? = none := by
  rw [currentHandle?, hCurrent, Option.bind_none, Option.map_none]

theorem currentHandle?_of_get? (hCurrent : t.current = some slot) (hGet : t.get? slot = some e) :
    t.currentHandle? = some e.handle := by
  rw [currentHandle?, hCurrent, Option.bind_some, hGet, Option.map_some]

theorem currentHandle_ends (hCurrent : t.HasCurrent) :
    currentHandle.Ends t [] (.ok t.currentHandle?) t :=
  (currentEnvironment_ends hCurrent).andThen (Ends.pure _ t)

theorem logAs_ends (hCurrent : t.HasCurrent) (message : String) :
    (logAs message).Ends t [] (.ok ()) t :=
  (currentHandle_ends hCurrent).andThen (ends_log .info _ t)

end Supervisor.Table
