import Supervisor.Proofs.Handle.Numbering

/-! The handles that a slot is given one after the other. A handle comes back after whole rounds and
never within one. -/

namespace Supervisor.Handle

variable {c : Capacity} {slot : Nat}

/-- The handle of a slot after so many environments. Before the first it is the reserved one. -/
def succession (capacity slot : Nat) : Nat → Except Fault Handle
  | 0 => .ok reserved
  | count + 1 => do
    let last ← succession capacity slot count
    let generation ← last.nextGeneration capacity
    return encode generation slot

/-- The number of that handle, which goes back to one after the last. -/
def turn : Nat → Nat
  | 0 => 0
  | count + 1 => turn count % lastNumber + 1

theorem turn_le (count : Nat) : turn count ≤ lastNumber := by
  cases count with
  | zero => exact Nat.zero_le _
  | succ count => exact Nat.mod_lt _ (by decide)

theorem turn_succ (count : Nat) : turn (count + 1) = count % lastNumber + 1 := by
  induction count with
  | zero => rfl
  | succ count ih => rw [turn, ih, Nat.mod_add_mod]

theorem turn_pos {count : Nat} (hCount : 0 < count) : 0 < turn count := by
  cases count with
  | zero => exact absurd hCount (Nat.lt_irrefl 0)
  | succ count => exact Nat.succ_pos _

/-- In the first round the numbers count the environments. -/
theorem turn_eq_self {count : Nat} (hCount : count ≤ lastNumber) : turn count = count := by
  cases count with
  | zero => rfl
  | succ count => rw [turn_succ, Nat.mod_eq_of_lt hCount]

/-- Two environments have the same number if whole rounds lie between them. -/
theorem turn_eq_iff {earlier later : Nat} (hFirst : 0 < earlier) (hOrder : earlier ≤ later) :
    turn earlier = turn later ↔ lastNumber ∣ later - earlier := by
  obtain ⟨before, rfl⟩ := Nat.exists_eq_add_of_lt hFirst
  obtain ⟨distance, rfl⟩ := Nat.exists_eq_add_of_le hOrder
  rw [Nat.zero_add, Nat.add_right_comm, turn_succ, turn_succ, Nat.dvd_iff_mod_eq_zero, lastNumber]
  omega

/-- Each handle is followed by the next number's, the last by the first. -/
theorem next_numbered {number : Nat} (hSlot : slot < c.size) (hLast : number ≤ lastNumber) :
    ∃ generation, (numbered slot number).nextGeneration c.size = .ok generation ∧
      encode generation slot = numbered slot (number % lastNumber + 1) := by
  have hWord := Nat.lt_of_lt_of_le hSlot c.size_le_step
  rcases Nat.lt_or_eq_of_le hLast with hBefore | rfl
  · refine ⟨_, nextGeneration_numbered hSlot hBefore, ?_⟩
    rw [encode_numbered hWord, Nat.mod_eq_of_lt hBefore]
  · refine ⟨_, nextGeneration_last hSlot, ?_⟩
    rw [minGeneration_eq, Nat.mod_self]
    have hFirst : 4096 = 4096 * (0 + 1) := rfl
    rw [hFirst, encode_numbered hWord]

theorem succession_eq (hSlot : slot < c.size) (count : Nat) :
    succession c.size slot count = .ok (numbered slot (turn count)) := by
  induction count with
  | zero => rfl
  | succ count ih =>
      obtain ⟨generation, hGeneration, hHandle⟩ := next_numbered hSlot (turn_le count)
      rw [turn, ← hHandle, succession, ih]
      show (do
        let generation ← (numbered slot (turn count)).nextGeneration c.size
        return encode generation slot) = _
      rw [hGeneration]
      rfl

theorem numbered_inj {number number' : Nat} (hSlot : slot < 4096)
    (hNumber : 0 < number) (hLast : number ≤ lastNumber)
    (hNumber' : 0 < number') (hLast' : number' ≤ lastNumber) :
    numbered slot number = numbered slot number' ↔ number = number' := by
  refine ⟨fun hSame => ?_, fun hSame => hSame ▸ rfl⟩
  have hInt := toInt_numbered hSlot hNumber hLast
  rw [hSame, toInt_numbered hSlot hNumber' hLast'] at hInt
  omega

/-- The handles that a slot is given are positive and name the slot. The first 2^19 - 1 of them
rise, and two are the same exactly if the number of times the slot was given anew between them is a
multiple of 2^19 - 1. -/
theorem succession_cycles (c : Capacity) :
    (∀ last : Handle, ∃ generation, last.nextGeneration c.size = .ok generation ∧
      0 < generation ∧ generation &&& Int32.ofNat (c.size - 1) = 0) ∧
      ∀ slot, slot < c.size → ∃ handle : Nat → Handle,
        (∀ count, succession c.size slot count = .ok (handle count)) ∧
        (∀ count, 0 < count → 0 < (handle count).raw ∧ (handle count).slot c.size = .ok slot) ∧
        (∀ earlier later, 0 < earlier → earlier < later → later ≤ 1 <<< 19 - 1 →
          (handle earlier).raw < (handle later).raw) ∧
        handle (1 <<< 19) = handle 1 ∧
        ∀ earlier later, 0 < earlier → earlier ≤ later →
          (handle earlier = handle later ↔ 1 <<< 19 - 1 ∣ later - earlier) := by
  have hRound : 1 <<< 19 - 1 = lastNumber := rfl
  refine ⟨nextGeneration_proper c, fun slot hSlot => ?_⟩
  have hWord := Nat.lt_of_lt_of_le hSlot c.size_le_step
  have hInt {count : Nat} (hCount : 0 < count) :
      (numbered slot (turn count)).raw.toInt = 4096 * turn count + slot :=
    toInt_numbered hWord (turn_pos hCount) (turn_le count)
  have hSame {earlier later : Nat} (hFirst : 0 < earlier) (hOrder : earlier ≤ later) :
      numbered slot (turn earlier) = numbered slot (turn later) ↔ lastNumber ∣ later - earlier := by
    rw [numbered_inj hWord (turn_pos hFirst) (turn_le _)
      (turn_pos (Nat.lt_of_lt_of_le hFirst hOrder)) (turn_le _), turn_eq_iff hFirst hOrder]
  rw [hRound]
  refine ⟨fun count => numbered slot (turn count), succession_eq hSlot, ?_, ?_, ?_, ?_⟩
  · intro count hCount
    have hPos := turn_pos hCount
    constructor
    · have hZero : (0 : Int32).toInt = 0 := by decide
      rw [Int32.lt_iff_toInt_lt, hInt hCount]
      omega
    · rw [slot_eq, slotIn_numbered hSlot hPos (turn_le count)]
  · intro earlier later hFirst hOrder hLast
    rw [Int32.lt_iff_toInt_lt, hInt hFirst, hInt (Nat.lt_trans hFirst hOrder), turn_eq_self hLast,
      turn_eq_self (Nat.le_trans (Nat.le_of_lt hOrder) hLast)]
    omega
  · exact ((hSame Nat.one_pos (by decide)).mpr (Nat.dvd_refl lastNumber)).symm
  · exact fun _ _ => hSame

/-- With a single slot the generation has the low twelve bits too and steps over them, so the handles
come back no later than with more slots. -/
theorem succession_cycles_single :
    let c : Capacity := ⟨0, by decide⟩
    0 < c.size ∧ ∃ first last, succession c.size 0 1 = .ok first ∧
      succession c.size 0 524287 = .ok last ∧ succession c.size 0 524288 = .ok first ∧
      first.raw < last.raw ∧ first ≠ last := by
  intro c
  have hSlot : 0 < c.size := by decide
  obtain ⟨handle, hGiven, -, hRise, hBack, hSame⟩ := (succession_cycles c).2 0 hSlot
  refine ⟨hSlot, handle 1, handle 524287, hGiven 1, hGiven 524287, ?_, ?_, ?_⟩
  · rw [← hBack]
    exact hGiven 524288
  · exact hRise 1 524287 (by decide) (by decide) (by decide)
  · rw [Ne, hSame 1 524287 (by decide) (by decide)]
    decide

end Supervisor.Handle
