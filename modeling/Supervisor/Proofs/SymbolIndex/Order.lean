import Supervisor.Proofs.SymbolIndex

/-! The order of an index: by address, and at one address by when a function was added. Both
directions of the index agree on it. -/

namespace Supervisor

namespace FunctionSymbol

variable {s : FunctionSymbol} {address : UInt64}

/-- The addresses in a function follow its start, and there is at least one. -/
theorem contains_iff : s.contains address ↔
    s.address.toNat ≤ address.toNat ∧
      address.toNat < s.address.toNat + max s.size.toNat 1 := by
  have hLength : (max s.size 1).toNat = max s.size.toNat 1 := by
    show (if s.size ≤ 1 then 1 else s.size).toNat = max s.size.toNat 1
    by_cases hSize : s.size ≤ 1
    · rw [if_pos hSize]
      exact (Nat.max_eq_right (UInt64.le_iff_toNat_le.mp hSize)).symm
    · rw [if_neg hSize]
      have hLess := UInt64.lt_iff_toNat_lt.mp (UInt64.not_le.mp hSize)
      exact (Nat.max_eq_left (Nat.le_of_lt hLess)).symm
  rw [contains, Bool.and_eq_true, decide_eq_true_iff, decide_eq_true_iff,
    UInt64.le_iff_toNat_le, UInt64.lt_iff_toNat_lt, hLength]
  refine and_congr_right fun hStarts => ?_
  rw [UInt64.toNat_sub_of_le _ _ (UInt64.le_iff_toNat_le.mpr hStarts)]
  omega

theorem contains_start (s : FunctionSymbol) : s.contains s.address :=
  contains_iff.mpr ⟨Nat.le_refl _, by omega⟩

end FunctionSymbol

namespace SymbolIndex

variable {index : SymbolIndex} {l past : List FunctionSymbol} {s other : FunctionSymbol}
  {address : UInt64}

def startingAt (address : UInt64) (l : List FunctionSymbol) : List FunctionSymbol :=
  l.filter (·.address == address)

/-- The first list holds the functions of the second by address, and those of one address in the
same order. -/
structure StablySorted (sorted l : List FunctionSymbol) : Prop where
  perm : sorted.Perm l
  ordered : sorted.Pairwise (·.address ≤ ·.address)
  stable : ∀ address, startingAt address sorted = startingAt address l

/-- The function is the one added last among those that start nearest to an address, at it or
before. -/
structure Governs (l : List FunctionSymbol) (address : UInt64) (s : FunctionSymbol) : Prop where
  starts : s.address ≤ address
  nearest : ∀ other ∈ l, other.address ≤ address → other.address ≤ s.address
  last : (startingAt s.address l).getLast? = some s

theorem mem_startingAt : s ∈ startingAt address l ↔ s ∈ l ∧ s.address = address := by
  simp [startingAt]

theorem startingAt_append (address : UInt64) (l₁ l₂ : List FunctionSymbol) :
    startingAt address (l₁ ++ l₂) = startingAt address l₁ ++ startingAt address l₂ :=
  List.filter_append ..

theorem startingAt_eq_nil (hLater : ∀ s ∈ l, address < s.address) : startingAt address l = [] := by
  rw [startingAt, List.filter_eq_nil_iff]
  intro s hMem hSame
  have hLess := hLater s hMem
  rw [beq_iff_eq.mp hSame] at hLess
  exact UInt64.lt_irrefl _ hLess

theorem upTo_append_beyond (index : SymbolIndex) (address : UInt64) :
    index.upTo address ++ index.beyond address = index.sorted :=
  List.takeWhile_append_dropWhile

theorem le_of_mem_upTo (hMem : s ∈ index.upTo address) : s.address ≤ address :=
  of_decide_eq_true (List.all_eq_true.mp List.all_takeWhile s hMem)

/-- In a sorted list nothing behind the first function past an address starts before it. -/
theorem lt_of_mem_beyond (ordered : index.sorted.Pairwise (·.address ≤ ·.address))
    (hMem : s ∈ index.beyond address) : address < s.address := by
  have hBeyond : (index.beyond address).Pairwise (·.address ≤ ·.address) :=
    ordered.sublist (List.dropWhile_sublist _)
  cases hList : index.beyond address with
  | nil =>
      rw [hList] at hMem
      cases hMem
  | cons first rest =>
      have hFirst : address < first.address := by
        have hHead := List.head?_dropWhile_not (fun s : FunctionSymbol => s.address ≤ address)
          index.sorted
        rw [← beyond, hList] at hHead
        simpa using hHead
      rw [hList] at hMem hBeyond
      rcases List.mem_cons.mp hMem with rfl | hLater
      · exact hFirst
      · exact UInt64.lt_of_lt_of_le hFirst ((List.pairwise_cons.mp hBeyond).1 s hLater)

theorem sorted_add (index : SymbolIndex) (s : FunctionSymbol) :
    (index.add s).sorted = index.upTo s.address ++ s :: index.beyond s.address := rfl

theorem perm_add (index : SymbolIndex) (s : FunctionSymbol) :
    (index.add s).sorted.Perm (s :: index.sorted) := by
  rw [sorted_add]
  refine List.perm_middle.trans ?_
  rw [upTo_append_beyond]

/-- All before the place of the new function start at its address or before, all behind it start
after it. -/
theorem ordered_add (ordered : index.sorted.Pairwise (·.address ≤ ·.address))
    (s : FunctionSymbol) : (index.add s).sorted.Pairwise (·.address ≤ ·.address) := by
  have hParts := ordered
  rw [← index.upTo_append_beyond s.address, List.pairwise_append] at hParts
  obtain ⟨hUpTo, hBeyond, hAcross⟩ := hParts
  rw [sorted_add, List.pairwise_append, List.pairwise_cons]
  refine ⟨hUpTo, ⟨fun later hLater => ?_, hBeyond⟩, fun first hFirst second hSecond => ?_⟩
  · exact UInt64.le_of_lt (lt_of_mem_beyond ordered hLater)
  · rcases List.mem_cons.mp hSecond with rfl | hLater
    · exact le_of_mem_upTo hFirst
    · exact hAcross first hFirst second hLater

/-- Among the functions of one address the new one comes last. -/
theorem startingAt_add (ordered : index.sorted.Pairwise (·.address ≤ ·.address))
    (s : FunctionSymbol) (address : UInt64) :
    startingAt address (index.add s).sorted =
      startingAt address index.sorted ++ startingAt address [s] := by
  rw [sorted_add, List.append_cons, startingAt_append, startingAt_append,
    ← index.upTo_append_beyond s.address, startingAt_append]
  by_cases hSame : s.address = address
  · subst hSame
    have hNone : startingAt s.address (index.beyond s.address) = [] :=
      startingAt_eq_nil fun other hMem => lt_of_mem_beyond ordered hMem
    rw [hNone, List.append_nil, List.append_nil]
  · simp [startingAt, hSame]

/-- A function that is added goes behind all that start at or before its address. -/
theorem StablySorted.add (sorted : StablySorted index.sorted past) (s : FunctionSymbol) :
    StablySorted (index.add s).sorted (past ++ [s]) where
  perm := calc
    (index.add s).sorted
    _ |>.Perm (s :: index.sorted) := perm_add index s
    _ |>.Perm (s :: past) := sorted.perm.cons s
    _ |>.Perm (past ++ [s]) := (List.perm_append_singleton s past).symm
  ordered := ordered_add sorted.ordered s
  stable := by
    intro address
    rw [startingAt_add sorted.ordered, sorted.stable, startingAt_append]

/-- However many functions are added, the index holds them sorted. -/
theorem StablySorted.foldl (sorted : StablySorted index.sorted past) (l : List FunctionSymbol) :
    StablySorted (l.foldl SymbolIndex.add index).sorted (past ++ l) := by
  induction l generalizing index past with
  | nil => rwa [List.append_nil]
  | cons s rest ih =>
      rw [List.foldl_cons, List.append_cons]
      exact ih (sorted.add s)

theorem stablySorted (l : List FunctionSymbol) :
    StablySorted (l.foldl add empty).sorted l :=
  StablySorted.foldl ⟨.refl [], .nil, fun _ => rfl⟩ l

theorem Governs.mem (h : Governs l address s) : s ∈ l :=
  (mem_startingAt.mp (List.mem_of_getLast? h.last)).1

theorem Governs.unique (h : Governs l address s) (hOther : Governs l address other) :
    s = other := by
  have hSame : s.address = other.address :=
    UInt64.le_antisymm (hOther.nearest s h.mem h.starts) (h.nearest other hOther.mem hOther.starts)
  have hLast := h.last
  rw [hSame, hOther.last] at hLast
  exact (Option.some.inj hLast).symm

theorem StablySorted.mem_upTo_iff (sorted : StablySorted index.sorted l) :
    s ∈ index.upTo address ↔ s ∈ l ∧ s.address ≤ address := by
  have hParts := index.upTo_append_beyond address
  constructor
  · intro hMem
    refine ⟨sorted.perm.mem_iff.mp ?_, le_of_mem_upTo hMem⟩
    exact hParts ▸ List.mem_append_left _ hMem
  · rintro ⟨hMem, hStarts⟩
    have hSorted := sorted.perm.mem_iff.mpr hMem
    rw [← hParts, List.mem_append] at hSorted
    refine hSorted.resolve_right fun hBeyond => ?_
    exact UInt64.not_lt.mpr hStarts (lt_of_mem_beyond sorted.ordered hBeyond)

/-- The last function of the part up to an address governs it. -/
theorem StablySorted.governs (sorted : StablySorted index.sorted l)
    (hLast : (index.upTo address).getLast? = some s) : Governs l address s := by
  obtain ⟨before, hUpTo⟩ := List.getLast?_eq_some_iff.mp hLast
  have hStarts : s.address ≤ address := le_of_mem_upTo (List.mem_of_getLast? hLast)
  refine ⟨hStarts, fun other hMem hOther => ?_, ?_⟩
  · have hBefore : other ∈ index.upTo address := sorted.mem_upTo_iff.mpr ⟨hMem, hOther⟩
    have hOrdered : (index.upTo address).Pairwise (·.address ≤ ·.address) :=
      sorted.ordered.sublist (List.takeWhile_sublist _)
    rw [hUpTo] at hBefore hOrdered
    rcases List.mem_append.mp hBefore with hEarlier | hSame
    · exact (List.pairwise_append.mp hOrdered).2.2 other hEarlier s (List.mem_singleton_self s)
    · exact List.mem_singleton.mp hSame ▸ UInt64.le_refl _
  · have hNone : startingAt s.address (index.beyond address) = [] :=
      startingAt_eq_nil fun other hBeyond =>
        UInt64.lt_of_le_of_lt hStarts (lt_of_mem_beyond sorted.ordered hBeyond)
    have hHere : startingAt s.address [s] = [s] := by simp [startingAt]
    rw [← sorted.stable, ← index.upTo_append_beyond address, startingAt_append, hNone,
      List.append_nil, hUpTo, startingAt_append, hHere, List.getLast?_concat]

theorem StablySorted.getLast?_upTo_iff (sorted : StablySorted index.sorted l) :
    (index.upTo address).getLast? = some s ↔ Governs l address s := by
  refine ⟨sorted.governs, fun h => ?_⟩
  have hMem : s ∈ index.upTo address := sorted.mem_upTo_iff.mpr ⟨h.mem, h.starts⟩
  cases hLast : (index.upTo address).getLast? with
  | none => simp [List.getLast?_eq_none_iff.mp hLast] at hMem
  | some other => rw [h.unique (sorted.governs hLast)]

/-- A function governs every address that one starts at or before. -/
theorem exists_governs (hMem : s ∈ l) (hStarts : s.address ≤ address) :
    ∃ other, Governs l address other := by
  have hUpTo := (stablySorted l).mem_upTo_iff.mpr ⟨hMem, hStarts⟩
  exact ⟨_, (stablySorted l).governs (List.getLast?_eq_some_getLast (List.ne_nil_of_mem hUpTo))⟩

/-- A search finds the function that governs the address, if the address lies in it. -/
theorem find?_eq_some_iff {offset : UInt64} :
    (l.foldl add empty).find? address = some (s, offset) ↔
      Governs l address s ∧ s.contains address ∧ offset = address - s.address := by
  rw [← (stablySorted l).getLast?_upTo_iff, find?]
  cases ((l.foldl add empty).upTo address).getLast? with
  | none => simp
  | some found =>
      by_cases hContains : found.contains address
      · simp only [hContains, if_true, Option.some.injEq, Prod.mk.injEq]
        grind
      · simp only [hContains]
        grind

/-- At an address at which a function starts, the one added there last is found, at its start. -/
theorem find?_start (hLast : (startingAt address l).getLast? = some s) :
    (l.foldl add empty).find? address = some (s, 0) := by
  have hStart : s.address = address := (mem_startingAt.mp (List.mem_of_getLast? hLast)).2
  subst hStart
  refine find?_eq_some_iff.mpr ⟨⟨UInt64.le_refl _, fun _ _ hStarts => hStarts, hLast⟩,
    s.contains_start, (UInt64.sub_self _).symm⟩

/-- By address an index holds exactly the functions added to it, sorted. A name leads to the last
function of that name, and its address to the one that came last there. No function starts between
an address and the function found around it. -/
theorem directions_agree (l : List FunctionSymbol) :
    let index := l.foldl add empty
    StablySorted index.sorted l ∧ index.count = l.length ∧
    (∀ name, index.findFunction? name =
      (l.filter (·.name == name)).getLast?.map (·.address)) ∧
    (∀ name address, index.findFunction? name = some address →
      ∃ s, (startingAt address l).getLast? = some s ∧ index.find? address = some (s, 0)) ∧
    (∀ address s offset, index.find? address = some (s, offset) →
      s ∈ l ∧ s.address.toNat + offset.toNat = address.toNat ∧ offset < max s.size 1 ∧
        ∀ other ∈ l, ¬ (s.address < other.address ∧ other.address ≤ address)) := by
  have hNames (name : String) : (l.foldl add empty).findFunction? name =
      (l.filter (·.name == name)).getLast?.map (·.address) := by
    rw [findFunction?_foldl]
    exact Option.or_none
  refine ⟨stablySorted l, (stablySorted l).perm.length_eq, hNames, ?_, ?_⟩
  · intro name address hFound
    rw [hNames] at hFound
    obtain ⟨named, hNamed, hAddress⟩ := Option.map_eq_some_iff.mp hFound
    have hMem : named ∈ startingAt address l :=
      mem_startingAt.mpr ⟨(List.mem_filter.mp (List.mem_of_getLast? hNamed)).1, hAddress⟩
    have hLast := List.getLast?_eq_some_getLast (List.ne_nil_of_mem hMem)
    exact ⟨_, hLast, find?_start hLast⟩
  · intro address s offset hFound
    obtain ⟨governs, hContains, rfl⟩ := find?_eq_some_iff.mp hFound
    have hStart : s.address.toNat ≤ address.toNat := UInt64.le_iff_toNat_le.mp governs.starts
    refine ⟨governs.mem, ?_, ?_, fun other hMem hBetween => ?_⟩
    · rw [UInt64.toNat_sub_of_le _ _ governs.starts]
      omega
    · rw [FunctionSymbol.contains, Bool.and_eq_true] at hContains
      exact of_decide_eq_true hContains.2
    · exact UInt64.not_lt.mpr (governs.nearest other hMem hBetween.2) hBetween.1

end SymbolIndex

end Supervisor
