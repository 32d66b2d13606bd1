import Supervisor.Proofs.Handle.Halves

/-! Handles as numbers. The environments of a slot are counted from one, and no generation comes
twice as long as the count fits. -/

namespace Supervisor

namespace Capacity

variable (c : Capacity)

theorem size_pos : 0 < c.size := by
  rw [size, Nat.one_shiftLeft]
  exact Nat.two_pow_pos _

/-- A generation is a whole number of tables. -/
theorem size_dvd_step : c.size ∣ 4096 := by
  rw [size, Nat.one_shiftLeft]
  exact Nat.pow_dvd_pow 2 c.log2_le

theorem size_le_step : c.size ≤ 4096 := Nat.le_of_dvd (by decide) c.size_dvd_step

/-- The bits below the size keep what is left of a number after division by it. -/
theorem and_mask (x : Nat) : x &&& (c.size - 1) = x % c.size := by
  rw [size, Nat.one_shiftLeft]
  exact Nat.and_two_pow_sub_one_eq_mod x c.log2

/-- A multiple of the size has no bit in common with what is left. -/
theorem mul_add_eq_or {slot : Nat} (hSlot : slot < c.size) (tables : Nat) :
    c.size * tables + slot = c.size * tables ||| slot := by
  rw [size, Nat.one_shiftLeft] at hSlot ⊢
  exact Nat.two_pow_add_eq_or_of_lt hSlot tables

/-- The other bits keep the multiple of the size. -/
theorem and_not_mask (x : Nat) :
    Int32.ofNat x &&& ~~~Int32.ofNat (c.size - 1) = Int32.ofNat (c.size * (x / c.size)) := by
  have hSplit : Int32.ofNat x =
      Int32.ofNat (c.size * (x / c.size)) ||| Int32.ofNat (x % c.size) := by
    rw [← Handle.ofNat_or, ← c.mul_add_eq_or (Nat.mod_lt x c.size_pos), Nat.div_add_mod]
  have hFree : Int32.ofNat (c.size * (x / c.size)) &&& Int32.ofNat (c.size - 1) = 0 := by
    rw [← Handle.ofNat_and, c.and_mask, Nat.mul_mod_right]
    rfl
  have hRest : x % c.size &&& (c.size - 1) = x % c.size := by rw [c.and_mask, Nat.mod_mod]
  rw [hSplit]
  exact Handle.encode_outside hFree hRest

end Capacity

namespace Handle

variable {c : Capacity}

/-- The slot in the low bits of a handle. -/
def slotIn (c : Capacity) (h : Handle) : Nat := h.raw.toUInt32.toNat % c.size

theorem slotIn_lt (c : Capacity) (h : Handle) : h.slotIn c < c.size :=
  Nat.mod_lt _ c.size_pos

theorem slotMask_eq (c : Capacity) : slotMask c.size = .ok (c.size - 1) :=
  slotMask_of_pos c.size_pos

theorem slot_eq (c : Capacity) (h : Handle) : h.slot c.size = .ok (h.slotIn c) := by
  rw [slot_of_pos h c.size_pos, c.and_mask, slotIn]

theorem minGeneration_eq : minGeneration = Int32.ofNat 4096 := by decide

theorem nextGeneration_eq {last : Handle} {next : Int32}
    (hNext : (last.raw + minGeneration) &&& ~~~Int32.ofNat (c.size - 1) = next) :
    last.nextGeneration c.size = .ok (if next ≤ 0 then minGeneration else next) := by
  rw [nextGeneration, slotMask_eq, Except.map, hNext]

/-- Whatever the last handle was, the next generation is positive and has no bit below the size of
the table. -/
theorem nextGeneration_proper (c : Capacity) (last : Handle) :
    ∃ generation, last.nextGeneration c.size = .ok generation ∧ 0 < generation ∧
      generation &&& Int32.ofNat (c.size - 1) = 0 := by
  refine ⟨_, nextGeneration_eq rfl, ?_⟩
  split
  case isTrue =>
    refine ⟨by decide, ?_⟩
    rw [minGeneration_eq, ← ofNat_and, c.and_mask, Nat.mod_eq_zero_of_dvd c.size_dvd_step]
    rfl
  case isFalse hPositive => exact ⟨Int32.not_le.mp hPositive, inside_outside _ _⟩

/-- Whatever the last handle was, the next one names the slot that it was made for. -/
theorem slotIn_next {last : Handle} {generation : Int32} {slot : Nat}
    (hNext : last.nextGeneration c.size = .ok generation) (hSlot : slot < c.size) :
    (encode generation slot).slotIn c = slot := by
  obtain ⟨_, hProper, -, hFree⟩ := nextGeneration_proper c last
  cases hNext.symm.trans hProper
  have hMask : c.size - 1 < UInt32.size :=
    Nat.lt_of_le_of_lt (Nat.le_trans (Nat.sub_le _ _) c.size_le_step) (by decide)
  rw [slotIn, ← c.and_mask]
  exact encode_inside hMask hFree (by rw [c.and_mask, Nat.mod_eq_of_lt hSlot])

theorem isReserved_iff {h : Handle} : h.isReserved ↔ h = reserved := by
  cases h
  simp [isReserved, reserved]

/-- The handle of the environment with a number in its slot. Number zero is that of a slot which no
environment has had. -/
def numbered (slot : Nat) : Nat → Handle
  | 0 => reserved
  | number + 1 => ⟨Int32.ofNat (4096 * (number + 1) + slot)⟩

theorem numbered_pos {slot number : Nat} (hNumber : 0 < number) :
    numbered slot number = ⟨Int32.ofNat (4096 * number + slot)⟩ := by
  cases number with
  | zero => exact absurd hNumber (Nat.lt_irrefl 0)
  | succ number => rfl

/-- The largest number of an environment whose handle is positive. -/
def lastNumber : Nat := 524287

theorem toInt_numbered {slot number : Nat} (hSlot : slot < 4096) (hNumber : 0 < number)
    (hLast : number ≤ lastNumber) : (numbered slot number).raw.toInt = 4096 * number + slot := by
  rw [numbered_pos hNumber, Int32.toInt_ofNat_of_lt (by unfold lastNumber at hLast; omega)]
  omega

theorem slotIn_numbered {slot number : Nat} (hSlot : slot < c.size) (hNumber : 0 < number)
    (hLast : number ≤ lastNumber) : (numbered slot number).slotIn c = slot := by
  have hFits := c.size_le_step
  obtain ⟨tables, hTables⟩ := c.size_dvd_step
  unfold lastNumber at hLast
  have hWord : 4096 * number + slot < UInt32.size := by
    simp only [UInt32.size]
    omega
  rw [numbered_pos hNumber, slotIn, Int32.toUInt32_ofNat', UInt32.toNat_ofNat_of_lt' hWord,
    hTables, Nat.mul_assoc, Nat.mul_add_mod]
  exact Nat.mod_eq_of_lt hSlot

theorem numbered_ne_reserved {slot number : Nat} (hSlot : slot < 4096) (hNumber : 0 < number)
    (hLast : number ≤ lastNumber) : numbered slot number ≠ reserved := by
  intro hEq
  have hInt := toInt_numbered hSlot hNumber hLast
  rw [hEq] at hInt
  have hZero : reserved.raw.toInt = 0 := by decide
  omega

/-- One step of the generation past a numbered handle, with the bits of the slot masked off. -/
private theorem masked_sum {slot number : Nat} (hSlot : slot < c.size) :
    ((numbered slot number).raw + minGeneration) &&& ~~~Int32.ofNat (c.size - 1) =
      Int32.ofNat (4096 * (number + 1)) := by
  obtain ⟨tables, hTables⟩ := c.size_dvd_step
  cases number with
  | zero =>
      have hSum : reserved.raw + Int32.ofNat 4096 = Int32.ofNat 4096 := by decide
      rw [numbered, minGeneration_eq, hSum, c.and_not_mask, hTables, Nat.mul_div_cancel_left _ c.size_pos]
      simp
  | succ number =>
      have hSum : 4096 * (number + 1) + slot + 4096 = c.size * (tables * (number + 2)) + slot := by
        rw [← Nat.mul_assoc, ← hTables]
        omega
      rw [numbered, minGeneration_eq, ← Int32.ofNat_add, c.and_not_mask, hSum,
        Nat.mul_add_div c.size_pos, Nat.div_eq_of_lt hSlot, Nat.add_zero, ← Nat.mul_assoc,
        ← hTables]

/-- The generation after a numbered handle belongs to the next number: nothing wraps. -/
theorem nextGeneration_numbered {slot number : Nat} (hSlot : slot < c.size)
    (hLast : number < lastNumber) :
    (numbered slot number).nextGeneration c.size = .ok (Int32.ofNat (4096 * (number + 1))) := by
  unfold lastNumber at hLast
  have hPositive : ¬ Int32.ofNat (4096 * (number + 1)) ≤ 0 := by
    rw [Int32.le_iff_toInt_le, Int32.toInt_ofNat_of_lt (by omega)]
    have hZero : (0 : Int32).toInt = 0 := by decide
    omega
  rw [nextGeneration_eq (masked_sum hSlot), if_neg hPositive]

/-- After the last numbered handle the sum is negative, and the generations start over. -/
theorem nextGeneration_last {slot : Nat} (hSlot : slot < c.size) :
    (numbered slot lastNumber).nextGeneration c.size = .ok minGeneration := by
  have hNegative : Int32.ofNat (4096 * (lastNumber + 1)) ≤ 0 := by decide
  rw [nextGeneration_eq (masked_sum hSlot), if_pos hNegative]

/-- A generation and a slot have no bit in common, so together they are the number. -/
theorem encode_numbered {slot number : Nat} (hSlot : slot < 4096) :
    encode (Int32.ofNat (4096 * (number + 1))) slot = numbered slot (number + 1) := by
  have hOr : 4096 * (number + 1) + slot = 4096 * (number + 1) ||| slot :=
    Nat.two_pow_add_eq_or_of_lt (show slot < Nat.pow 2 12 from hSlot) (number + 1)
  rw [encode, numbered, hOr, ofNat_or]

end Handle

end Supervisor
