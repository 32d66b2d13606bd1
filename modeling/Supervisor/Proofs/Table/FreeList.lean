import Supervisor.Proofs.Table.Slot

/-! The free list as a list of slots. `Linked` says that the links run through exactly these slots,
`Sound` that they are the free ones. -/

namespace Supervisor.Table

variable {c : Capacity} {t t' : Table c} {slot : Nat} {e : Environment} {free : List Nat}

/-- The links lead from a slot through exactly these slots and end after the last of them. -/
inductive Linked (t : Table c) : Option Nat → List Nat → Prop where
  | nil : Linked t none []
  | cons {slot : Nat} {e : Environment} {rest : List Nat} (hGet : t.get? slot = some e)
      (hRest : Linked t e.link rest) : Linked t (some slot) (slot :: rest)

/-- Only the records on the way matter. -/
theorem Linked.congr {head : Option Nat} (h : t.Linked head free)
    (hSame : ∀ slot ∈ free, t'.get? slot = t.get? slot) : t'.Linked head free := by
  induction h with
  | nil => exact .nil
  | @cons slot e rest hGet hRest ih =>
      refine .cons ((hSame slot (List.mem_cons_self ..)).trans hGet) ?_
      exact ih fun other hMem => hSame other (List.mem_cons_of_mem _ hMem)

theorem Linked.exists_get? {head : Option Nat} (h : t.Linked head free) :
    ∀ slot ∈ free, ∃ e, t.get? slot = some e := by
  induction h with
  | nil => simp
  | cons hGet hRest ih =>
      intro other hMem
      rcases List.mem_cons.mp hMem with rfl | hMem
      · exact ⟨_, hGet⟩
      · exact ih other hMem

/-- What follows the first slot is linked from its record. -/
theorem Linked.tail {head : Option Nat} {rest : List Nat} (h : t.Linked head (slot :: rest))
    (hGet : t.get? slot = some e) : t.Linked e.link rest := by
  cases h with
  | cons hHead hRest =>
      cases hGet.symm.trans hHead
      exact hRest

theorem Linked.head_eq {head : Option Nat} (h : t.Linked head free) : head = free.head? := by
  cases h <;> rfl

/-- A walk with enough fuel passes the slots of the list. -/
theorem Linked.walk_eq {head : Option Nat} (h : t.Linked head free) {fuel : Nat}
    (hFuel : free.length ≤ fuel) : t.walk fuel head = some free := by
  induction h generalizing fuel with
  | nil => cases fuel <;> rfl
  | cons hGet hRest ih =>
      cases fuel with
      | zero => simp at hFuel
      | succ fuel =>
          have hRestFuel := ih (Nat.le_of_succ_le_succ hFuel)
          simp only [walk, hGet, hRestFuel, Option.map_some]

/-- The free slots in the order of the free list, and a current slot that is in use. -/
structure Sound (t : Table c) (free : List Nat) : Prop where
  linked : t.Linked t.freeHead free
  nodup : free.Nodup
  mem_iff : ∀ {slot e}, t.get? slot = some e → (slot ∈ free ↔ e.status = .free)
  current_live : ∀ {slot}, t.current = some slot → ∃ e, t.get? slot = some e ∧ e.status ≠ .free

namespace Sound

theorem hasCurrent (sound : t.Sound free) : t.HasCurrent := by
  intro slot hSlot
  obtain ⟨e, hGet, _⟩ := sound.current_live hSlot
  exact ⟨e, hGet⟩

theorem not_mem (sound : t.Sound free) (hGet : t.get? slot = some e) (hLive : e.status ≠ .free) :
    slot ∉ free :=
  fun hMem => hLive ((sound.mem_iff hGet).mp hMem)

theorem lt_of_mem (sound : t.Sound free) (hMem : slot ∈ free) : slot < c.size := by
  obtain ⟨_, hGet⟩ := sound.linked.exists_get? slot hMem
  exact lt_of_get? hGet

theorem length_le (sound : t.Sound free) : free.length ≤ c.size := by
  have hSubset : free ⊆ List.range c.size :=
    fun slot hMem => List.mem_range.mpr (sound.lt_of_mem hMem)
  simpa using sound.nodup.length_le_of_subset hSubset

theorem freeList?_eq (sound : t.Sound free) : t.freeList? = some free :=
  sound.linked.walk_eq sound.length_le

end Sound

theorem get?_new (hLt : slot < c.size) : (new : Table c).get? slot =
    some { Environment.unused with
      link := if slot + 1 < c.size then some (slot + 1) else none } := by
  simp [get?, new, hLt]

/-- The links of the new table lead through the last `count` slots in ascending order. -/
private theorem linked_new_from (count : Nat) (hCount : count < c.size) :
    (new : Table c).Linked (some (c.size - 1 - count))
      (List.range' (c.size - 1 - count) (count + 1)) := by
  induction count with
  | zero =>
      refine .cons (get?_new (by omega)) ?_
      rw [if_neg (by omega)]
      exact .nil
  | succ count ih =>
      have hNext : c.size - 1 - (count + 1) + 1 = c.size - 1 - count := by omega
      rw [List.range'_succ]
      refine .cons (get?_new (by omega)) ?_
      rw [if_pos (by omega), hNext]
      exact ih (by omega)

theorem sound_new (hSize : 0 < c.size) : (new : Table c).Sound (List.range c.size) where
  linked := by
    have hAll := linked_new_from (c.size - 1) (by omega : c.size - 1 < c.size)
    rw [Nat.sub_self, Nat.sub_add_cancel hSize, ← List.range_eq_range'] at hAll
    exact hAll
  nodup := List.nodup_range
  mem_iff := by
    intro slot e hGet
    have hLt := lt_of_get? hGet
    rw [get?_new hLt] at hGet
    cases hGet
    simp [hLt, Environment.unused]
  current_live := by
    intro slot hSlot
    cases hSlot

/-- The table with a slot back on the free list. -/
def freed (t : Table c) (slot : Nat) (e : Environment) : Table c :=
  { t.put slot { e with status := .free, link := t.freeHead } with
    freeHead := some slot
    current := if t.current = some slot then none else t.current }

/-- The table with the head of the free list given to an environment. -/
def granted (t : Table c) (slot : Nat) (next : Option Nat) (e : Environment) : Table c :=
  { t.put slot e with freeHead := next, stackTop := t.stackTop - Layout.stackSize }

/-- The table with a slot current and its environment running. -/
def entered (t : Table c) (slot : Nat) (e : Environment) : Table c :=
  { t.put slot { e with status := .running, runs := e.runs + 1 } with current := some slot }

theorem Sound.freed (sound : t.Sound free) (hGet : t.get? slot = some e)
    (hLive : e.status ≠ .free) : (t.freed slot e).Sound (slot :: free) where
  linked := by
    refine .cons (get?_put_same hGet) ?_
    refine sound.linked.congr fun other hMem => get?_put_of_ne ?_
    rintro rfl
    exact sound.not_mem hGet hLive hMem
  nodup := List.nodup_cons.mpr ⟨sound.not_mem hGet hLive, sound.nodup⟩
  mem_iff := by
    intro other e' hOther
    rcases get?_put_cases hGet hOther with ⟨rfl, rfl⟩ | ⟨hNe, hOld⟩
    · simp
    · simp [← sound.mem_iff hOld, Ne.symm hNe]
  current_live := by
    intro other hCurrent
    have hNe : t.current ≠ some slot := by
      intro hEq
      simp [Table.freed, hEq] at hCurrent
    have hOld : t.current = some other := by simpa [Table.freed, hNe] using hCurrent
    obtain ⟨e', hOther, hLive'⟩ := sound.current_live hOld
    refine ⟨e', (get?_put_of_ne ?_).trans hOther, hLive'⟩
    rintro rfl
    exact hNe hOld

theorem Sound.granted {e' : Environment} (sound : t.Sound (slot :: free))
    (hGet : t.get? slot = some e) (hLive : e'.status ≠ .free) :
    (t.granted slot e.link e').Sound free where
  linked := by
    have hNot := (List.nodup_cons.mp sound.nodup).1
    refine (sound.linked.tail hGet).congr fun other hMem => get?_put_of_ne ?_
    rintro rfl
    exact hNot hMem
  nodup := (List.nodup_cons.mp sound.nodup).2
  mem_iff := by
    intro other e'' hOther
    rcases get?_put_cases hGet hOther with ⟨rfl, rfl⟩ | ⟨hNe, hOld⟩
    · simp [hLive, (List.nodup_cons.mp sound.nodup).1]
    · rw [← sound.mem_iff hOld, List.mem_cons]
      exact ⟨Or.inr, fun h => h.resolve_left (Ne.symm hNe)⟩
  current_live := by
    intro other hCurrent
    obtain ⟨old, hOther, hOldLive⟩ := sound.current_live hCurrent
    refine ⟨old, (get?_put_of_ne ?_).trans hOther, hOldLive⟩
    rintro rfl
    exact sound.not_mem hOther hOldLive (List.mem_cons_self ..)

/-- A record in use may change in any way that keeps it in use. -/
theorem Sound.put {e' : Environment} (sound : t.Sound free) (hGet : t.get? slot = some e)
    (hLive : e.status ≠ .free) (hLive' : e'.status ≠ .free) : (t.put slot e').Sound free where
  linked := by
    refine sound.linked.congr fun other hMem => get?_put_of_ne ?_
    rintro rfl
    exact sound.not_mem hGet hLive hMem
  nodup := sound.nodup
  mem_iff := by
    intro other e'' hOther
    rcases get?_put_cases hGet hOther with ⟨rfl, rfl⟩ | ⟨_, hOld⟩
    · simp [hLive', sound.not_mem hGet hLive]
    · exact sound.mem_iff hOld
  current_live := by
    intro other hCurrent
    obtain ⟨old, hOther, hOldLive⟩ := sound.current_live hCurrent
    by_cases hSame : slot = other
    · subst hSame
      exact ⟨e', get?_put_same hGet, hLive'⟩
    · exact ⟨old, (get?_put_of_ne hSame).trans hOther, hOldLive⟩

/-- Any slot in use may become current. -/
theorem Sound.withCurrent (sound : t.Sound free) (hGet : t.get? slot = some e)
    (hLive : e.status ≠ .free) : { t with current := some slot }.Sound free where
  linked := sound.linked.congr fun _ _ => rfl
  nodup := sound.nodup
  mem_iff := sound.mem_iff
  current_live := by
    intro other hCurrent
    cases hCurrent
    exact ⟨e, hGet, hLive⟩

theorem Sound.entered (sound : t.Sound free) (hGet : t.get? slot = some e)
    (hLive : e.status ≠ .free) : (t.entered slot e).Sound free :=
  (sound.put hGet hLive (by simp)).withCurrent (get?_put_same hGet) (by simp)

end Supervisor.Table
