import Supervisor.Handle

/-! The two halves of a handle. A slot and a generation are read back from the handle that they make
up if they share no bits. -/

namespace Supervisor.Handle

/-- Each bit of a word is outside the mask or inside it. -/
theorem outside_or_inside (word mask : Int32) : word &&& ~~~mask ||| word &&& mask = word := by
  apply Int32.toBitVec.inj
  ext i
  simp only [Int32.toBitVec_or, Int32.toBitVec_and, Int32.toBitVec_not, BitVec.getElem_or,
    BitVec.getElem_and, BitVec.getElem_not]
  cases word.toBitVec[i] <;> cases mask.toBitVec[i] <;> rfl

theorem or_outside (word rest mask : Int32) :
    (word ||| rest) &&& ~~~mask = word &&& ~~~mask ||| rest &&& ~~~mask := by
  apply Int32.toBitVec.inj
  ext i
  simp only [Int32.toBitVec_or, Int32.toBitVec_and, Int32.toBitVec_not, BitVec.getElem_or,
    BitVec.getElem_and, BitVec.getElem_not, Bool.and_or_distrib_right]

/-- Nothing of a word inside the mask is left outside it. -/
theorem inside_outside (word mask : Int32) : word &&& ~~~mask &&& mask = 0 := by
  rw [Int32.and_assoc, Int32.not_and_self, Int32.and_zero]

/-- A word without bits inside the mask is all outside it. -/
theorem outside_of_inside_eq_zero {word mask : Int32} (hInside : word &&& mask = 0) :
    word &&& ~~~mask = word := by
  have hWord := outside_or_inside word mask
  rwa [hInside, Int32.or_zero] at hWord

theorem ofNat_and (a b : Nat) : Int32.ofNat (a &&& b) = Int32.ofNat a &&& Int32.ofNat b := by
  rw [← UInt32.toInt32_ofNat', UInt32.ofNat_and, UInt32.toInt32_and, UInt32.toInt32_ofNat',
    UInt32.toInt32_ofNat']

theorem ofNat_or (a b : Nat) : Int32.ofNat (a ||| b) = Int32.ofNat a ||| Int32.ofNat b := by
  rw [← UInt32.toInt32_ofNat', UInt32.ofNat_or, UInt32.toInt32_or, UInt32.toInt32_ofNat',
    UInt32.toInt32_ofNat']

/-- A word is the number that its bits spell. -/
theorem ofNat_toUInt32 (word : Int32) : Int32.ofNat word.toUInt32.toNat = word := by
  rw [← UInt32.toInt32_ofNat', UInt32.ofNat_toNat, Int32.toInt32_toUInt32]

variable {generation : Int32} {slot capacity : Nat}

theorem slotMask_of_pos (hCapacity : 0 < capacity) : slotMask capacity = .ok (capacity - 1) :=
  if_neg (Nat.pos_iff_ne_zero.mp hCapacity)

theorem slot_of_pos (h : Handle) (hCapacity : 0 < capacity) :
    h.slot capacity = .ok (h.raw.toUInt32.toNat &&& (capacity - 1)) := by
  rw [Handle.slot, slotMask_of_pos hCapacity]
  rfl

theorem generation_of_pos (h : Handle) (hCapacity : 0 < capacity) :
    h.generation capacity = .ok (h.raw &&& ~~~Int32.ofNat (capacity - 1)) := by
  rw [Handle.generation, slotMask_of_pos hCapacity]
  rfl

/-- The bits inside and outside any mask make up the handle. -/
theorem encode_split (h : Handle) (mask : Nat) :
    encode (h.raw &&& ~~~Int32.ofNat mask) (h.raw.toUInt32.toNat &&& mask) = h := by
  rw [encode, ofNat_and, ofNat_toUInt32, outside_or_inside]

/-- As a number, a handle has the bits of its generation and of its slot. -/
theorem toNat_encode (hSlot : slot < UInt32.size) :
    (encode generation slot).raw.toUInt32.toNat = generation.toUInt32.toNat ||| slot := by
  rw [encode, Int32.toUInt32_or, Int32.toUInt32_ofNat', UInt32.toNat_or,
    UInt32.toNat_ofNat_of_lt' hSlot]

theorem toNat_and_eq_zero {mask : Nat} (hMask : mask < UInt32.size)
    (hFree : generation &&& Int32.ofNat mask = 0) : generation.toUInt32.toNat &&& mask = 0 := by
  have hBits := congrArg (fun word : Int32 => word.toUInt32.toNat) hFree
  rwa [Int32.toUInt32_and, Int32.toUInt32_ofNat', UInt32.toNat_and,
    UInt32.toNat_ofNat_of_lt' hMask] at hBits

/-- The slot is read back from a handle whose generation has no bit inside the mask. -/
theorem encode_inside {mask : Nat} (hMask : mask < UInt32.size)
    (hFree : generation &&& Int32.ofNat mask = 0) (hSlot : slot &&& mask = slot) :
    (encode generation slot).raw.toUInt32.toNat &&& mask = slot := by
  have hLe : slot ≤ mask := hSlot ▸ Nat.and_le_right
  rw [toNat_encode (Nat.lt_of_le_of_lt hLe hMask), Nat.and_or_distrib_right,
    toNat_and_eq_zero hMask hFree, hSlot, Nat.zero_or]

/-- The generation is read back from a handle whose slot has no bit outside the mask. -/
theorem encode_outside {mask : Nat} (hFree : generation &&& Int32.ofNat mask = 0)
    (hSlot : slot &&& mask = slot) :
    (encode generation slot).raw &&& ~~~Int32.ofNat mask = generation := by
  have hInside : Int32.ofNat slot &&& ~~~Int32.ofNat mask = 0 := by
    rw [← hSlot, ofNat_and, Int32.and_assoc, Int32.and_not_self, Int32.and_zero]
  rw [encode, or_outside, outside_of_inside_eq_zero hFree, hInside, Int32.or_zero]

/-- Whatever the capacity, every handle is made up of a generation and a slot. If the capacity is a
power of two of at most 2^32, every slot below it and every generation without bits of the mask are
read back from the handle that they make up. -/
theorem halves_exact :
    (∀ (h : Handle) (capacity : Nat), 0 < capacity → ∃ generation slot,
      h.generation capacity = .ok generation ∧ h.slot capacity = .ok slot ∧
        generation &&& Int32.ofNat (capacity - 1) = 0 ∧ slot < capacity ∧
        encode generation slot = h) ∧
      ∀ capacity : Nat, capacity.isPowerOfTwo → capacity ≤ UInt32.size →
        ∀ (generation : Int32) (slot : Nat), generation &&& Int32.ofNat (capacity - 1) = 0 →
          slot < capacity → (encode generation slot).slot capacity = .ok slot ∧
            (encode generation slot).generation capacity = .ok generation := by
  constructor
  · intro h capacity hCapacity
    refine ⟨_, _, generation_of_pos h hCapacity, slot_of_pos h hCapacity, inside_outside _ _, ?_,
      encode_split h _⟩
    exact Nat.lt_of_le_of_lt Nat.and_le_right (Nat.sub_one_lt_of_lt hCapacity)
  · intro capacity hPower hWord generation slot hFree hSlot
    have hCapacity : 0 < capacity := Nat.zero_lt_of_lt hSlot
    have hMask : capacity - 1 < UInt32.size :=
      Nat.lt_of_lt_of_le (Nat.sub_one_lt_of_lt hCapacity) hWord
    have hInside : slot &&& (capacity - 1) = slot := by
      obtain ⟨k, rfl⟩ := hPower
      exact Nat.and_two_pow_sub_one_of_lt_two_pow hSlot
    rw [slot_of_pos _ hCapacity, generation_of_pos _ hCapacity,
      encode_inside hMask hFree hInside, encode_outside hFree hInside]
    exact ⟨rfl, rfl⟩

/-- A negative handle is divided at a capacity that is no power of two and more than a word holds.
At the largest power of two the slot has all bits, the sign among them, and the generation none. -/
theorem halves_exact_wide :
    0 < 0x300000003 ∧ (∃ generation slot, (Handle.mk (-5)).generation 0x300000003 = .ok generation ∧
      (Handle.mk (-5)).slot 0x300000003 = .ok slot ∧ encode generation slot = ⟨-5⟩) ∧
      UInt32.size.isPowerOfTwo ∧ 0x80000001 < UInt32.size ∧
      (encode 0 0x80000001).slot UInt32.size = .ok 0x80000001 ∧
      (encode 0 0x80000001).generation UInt32.size = .ok 0 := by
  obtain ⟨hMade, hRead⟩ := halves_exact
  obtain ⟨generation, slot, hGeneration, hSlot, -, -, hHandle⟩ :=
    hMade ⟨-5⟩ 0x300000003 (by decide)
  have hPower : UInt32.size.isPowerOfTwo := ⟨32, rfl⟩
  have hBelow : 0x80000001 < UInt32.size := by decide
  have hHalves := hRead UInt32.size hPower (Nat.le_refl _) 0 0x80000001 (by decide) hBelow
  exact ⟨by decide, ⟨generation, slot, hGeneration, hSlot, hHandle⟩, hPower, hBelow, hHalves⟩

end Supervisor.Handle
