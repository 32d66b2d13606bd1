import Supervisor.Proofs.SymbolIndex.Order

/-! Searching an index for the function around an address. Only the one that starts nearest below is
looked at, and it hides those around it. -/

namespace Supervisor

namespace FunctionSymbol

/-- One past the last address of a function, which does not go beyond the last of all addresses. -/
def stop (s : FunctionSymbol) : Nat := min (s.address.toNat + max s.size.toNat 1) UInt64.size

theorem contains_iff_lt_stop {s : FunctionSymbol} {address : UInt64} : s.contains address ↔
    s.address.toNat ≤ address.toNat ∧ address.toNat < s.stop := by
  rw [contains_iff, stop, Nat.lt_min]
  have hSize : address.toNat < UInt64.size := address.toNat_lt_size
  omega

end FunctionSymbol

namespace SymbolIndex

open FunctionSymbol (contains_iff_lt_stop)

variable {l : List FunctionSymbol} {s inner outer : FunctionSymbol} {address : UInt64}

/-- The inner function starts in the outer one and ends before it, and no function starts up to and
including the address behind the inner one. It is the one of its address that was added last. -/
structure Hides (l : List FunctionSymbol) (inner outer : FunctionSymbol) : Prop where
  last : (startingAt inner.address l).getLast? = some inner
  starts : outer.address ≤ inner.address
  ends : inner.stop < outer.stop
  alone : ∀ s ∈ l, inner.address < s.address → inner.stop < s.address.toNat

/-- The inner function governs the address behind it. -/
theorem Hides.governs (hides : Hides l inner outer) (hBehind : address.toNat = inner.stop) :
    Governs l address inner := by
  have hInner := contains_iff_lt_stop.mp inner.contains_start
  refine ⟨UInt64.le_iff_toNat_le.mpr (by omega), fun other hMem hOther => ?_, hides.last⟩
  apply UInt64.not_lt.mp
  intro hLater
  have hFar := hides.alone other hMem hLater
  rw [UInt64.le_iff_toNat_le] at hOther
  omega

/-- A function that contains an address which another one governs without containing it is hidden
by that one. -/
theorem Governs.hides (governs : Governs l address inner) (hInner : ¬ inner.contains address)
    (hMem : outer ∈ l) (hOuter : outer.contains address) : Hides l inner outer := by
  have hWithin := contains_iff_lt_stop.mp hOuter
  have hStarts := UInt64.le_iff_toNat_le.mp governs.starts
  have hPast : inner.stop ≤ address.toNat := by
    rw [contains_iff_lt_stop] at hInner
    omega
  refine ⟨governs.last, governs.nearest outer hMem (UInt64.le_iff_toNat_le.mpr hWithin.1),
    by omega, fun s hS hLater => ?_⟩
  have hBeyond : address < s.address := by
    apply UInt64.not_le.mp
    intro hUpTo
    exact UInt64.not_lt.mpr (governs.nearest s hS hUpTo) hLater
  rw [UInt64.lt_iff_toNat_lt] at hBeyond
  omega

theorem mem_of_find? {offset : UInt64}
    (hFound : (l.foldl add empty).find? address = some (s, offset)) :
    s ∈ l ∧ s.contains address := by
  obtain ⟨governs, hContains, -⟩ := find?_eq_some_iff.mp hFound
  exact ⟨governs.mem, hContains⟩

/-- A search succeeds exactly at the addresses in the function that governs them. -/
theorem find?_isSome_iff :
    ((l.foldl add empty).find? address).isSome ↔ ∃ s, Governs l address s ∧ s.contains address := by
  rw [Option.isSome_iff_exists]
  constructor
  · rintro ⟨⟨s, offset⟩, hFound⟩
    obtain ⟨governs, hContains, -⟩ := find?_eq_some_iff.mp hFound
    exact ⟨s, governs, hContains⟩
  · rintro ⟨s, governs, hContains⟩
    exact ⟨(s, address - s.address), find?_eq_some_iff.mpr ⟨governs, hContains, rfl⟩⟩

/-- In a function that no other one hides, every address is found. -/
theorem find?_isSome_of_contains (hVisible : ∀ inner ∈ l, ¬ Hides l inner outer)
    (hMem : outer ∈ l) (hOuter : outer.contains address) :
    ((l.foldl add empty).find? address).isSome := by
  have hStarts := UInt64.le_iff_toNat_le.mpr (contains_iff_lt_stop.mp hOuter).1
  obtain ⟨inner, governs⟩ := exists_governs hMem hStarts
  by_cases hInner : inner.contains address
  · exact find?_isSome_iff.mpr ⟨inner, governs, hInner⟩
  · exact absurd (governs.hides hInner hMem hOuter) (hVisible inner governs.mem)

/-- In a hidden function the address behind the one that hides it is not found. -/
theorem Hides.misses (hides : Hides l inner outer) :
    ∃ address, outer.contains address ∧ ¬ ((l.foldl add empty).find? address).isSome := by
  have hInside : inner.stop < UInt64.size := Nat.lt_of_lt_of_le hides.ends (Nat.min_le_right ..)
  have hBehind : (UInt64.ofNat inner.stop).toNat = inner.stop :=
    UInt64.toNat_ofNat_of_lt' hInside
  have hStart := contains_iff_lt_stop.mp inner.contains_start
  have hStarts := UInt64.le_iff_toNat_le.mp hides.starts
  refine ⟨UInt64.ofNat inner.stop,
    contains_iff_lt_stop.mpr ⟨by omega, hBehind.symm ▸ hides.ends⟩, fun hFound => ?_⟩
  obtain ⟨s, governs, hContains⟩ := find?_isSome_iff.mp hFound
  rw [governs.unique (hides.governs hBehind), contains_iff_lt_stop, hBehind] at hContains
  exact Nat.lt_irrefl _ hContains.2

/-- Where functions share no address, a search finds the one that contains the address. -/
theorem find?_of_disjoint
    (disjoint : ∀ s ∈ l, ∀ other ∈ l, ∀ address,
      s.contains address → other.contains address → s = other)
    (hMem : s ∈ l) (hContains : s.contains address) :
    (l.foldl add empty).find? address = some (s, address - s.address) := by
  have hVisible (inner : FunctionSymbol) (hInner : inner ∈ l) : ¬ Hides l inner s := by
    intro hides
    have hStart := contains_iff_lt_stop.mp inner.contains_start
    have hWithin : s.contains inner.address := contains_iff_lt_stop.mpr
      ⟨UInt64.le_iff_toNat_le.mp hides.starts, Nat.lt_trans hStart.2 hides.ends⟩
    have hSame := disjoint inner hInner s hMem _ inner.contains_start hWithin
    exact Nat.lt_irrefl _ (hSame ▸ hides.ends)
  obtain ⟨found, governs, hFound⟩ :=
    find?_isSome_iff.mp (find?_isSome_of_contains hVisible hMem hContains)
  cases disjoint found governs.mem s hMem address hFound hContains
  exact find?_eq_some_iff.mpr ⟨governs, hContains, rfl⟩

/-- What a search finds is a function of the index and contains the address. Whether a search finds
a function at every address that lies in one depends on how the functions lie: it does exactly if
none of them hides another. -/
theorem find?_complete_iff (l : List FunctionSymbol) :
    let index := l.foldl add empty
    (∀ address s offset, index.find? address = some (s, offset) → s ∈ l ∧ s.contains address) ∧
    ((∀ address, (index.find? address).isSome ↔ ∃ s ∈ l, s.contains address) ↔
      ∀ inner ∈ l, ∀ outer ∈ l, ¬ Hides l inner outer) := by
  refine ⟨fun address s offset => mem_of_find?, ?_⟩
  constructor
  · intro complete inner hInner outer hOuter hides
    obtain ⟨address, hContains, hMissed⟩ := hides.misses
    exact hMissed ((complete address).mpr ⟨outer, hOuter, hContains⟩)
  · intro hVisible address
    constructor
    · intro hFound
      obtain ⟨s, governs, hContains⟩ := find?_isSome_iff.mp hFound
      exact ⟨s, governs.mem, hContains⟩
    · rintro ⟨outer, hMem, hOuter⟩
      exact find?_isSome_of_contains (fun inner hInner => hVisible inner hInner outer hMem)
        hMem hOuter

/-- Behind a function of sixteen bytes in the middle of one of a page, the larger one is not found,
although it contains the address. -/
theorem find?_misses_outer :
    let outer : FunctionSymbol := ⟨"outer", 0x1000, 0x1000⟩
    let index := [outer, ⟨"inner", 0x1100, 0x10⟩].foldl add empty
    outer ∈ index.sorted ∧ outer.contains 0x1800 ∧ index.find? 0x1800 = none := by
  decide

end SymbolIndex

end Supervisor
