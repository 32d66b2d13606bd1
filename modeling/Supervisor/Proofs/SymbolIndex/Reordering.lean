import Supervisor.Proofs.SymbolIndex.Order

/-! The order in which functions are added to an index. It counts only between functions that share
an address or a name. -/

namespace Supervisor.SymbolIndex

variable {l l₁ l₂ : List FunctionSymbol} {s t : FunctionSymbol}

section Key

variable {κ : Type} [BEq κ] [LawfulBEq κ] {key : FunctionSymbol → κ}

/-- Where functions have distinct keys, one of them is all there is of its key. -/
theorem filter_key_eq_singleton (hDistinct : (l.map key).Nodup) (hMem : s ∈ l) :
    l.filter (key · == key s) = [s] := by
  induction l with
  | nil => cases hMem
  | cons t rest ih =>
      obtain ⟨hFresh, hRest⟩ := List.nodup_cons.mp hDistinct
      rcases List.mem_cons.mp hMem with rfl | hLater
      · have hNone : rest.filter (key · == key s) = [] := by
          rw [List.filter_eq_nil_iff]
          intro other hOther hSame
          exact hFresh (beq_iff_eq.mp hSame ▸ List.mem_map_of_mem hOther)
        rw [List.filter_cons, if_pos (beq_self_eq_true _), hNone]
      · have hOther : ¬ (key t == key s) := by
          rw [beq_iff_eq]
          intro hSame
          exact hFresh (hSame ▸ List.mem_map_of_mem hLater)
        rw [List.filter_cons, if_neg hOther, ih hRest hLater]

/-- In any order they have the same functions of a key. -/
theorem filter_key_eq_of_perm (hPerm : l₁.Perm l₂) (hDistinct : (l₁.map key).Nodup) (k : κ) :
    l₁.filter (key · == k) = l₂.filter (key · == k) := by
  have hFiltered := hPerm.filter (key · == k)
  cases hSome : l₁.filter (key · == k) with
  | nil => exact (hSome ▸ hFiltered).nil_eq
  | cons s rest =>
      have hHead : s ∈ l₁.filter (key · == k) := hSome ▸ List.mem_cons_self ..
      obtain ⟨hMem, hKey⟩ := List.mem_filter.mp hHead
      have hOne := filter_key_eq_singleton hDistinct hMem
      rw [beq_iff_eq.mp hKey] at hOne
      rw [← hSome, hOne]
      exact (hOne ▸ hFiltered).singleton_eq

end Key

theorem mem_iff_of_startingAt
    (hSame : ∀ address, startingAt address l₁ = startingAt address l₂) : s ∈ l₁ ↔ s ∈ l₂ := by
  have hHere (l : List FunctionSymbol) : s ∈ l ↔ s ∈ startingAt s.address l := by
    simp [mem_startingAt]
  rw [hHere l₁, hHere l₂, hSame]

theorem head_le (ordered : (s :: l).Pairwise (·.address ≤ ·.address)) (hMem : t ∈ s :: l) :
    s.address ≤ t.address := by
  rcases List.mem_cons.mp hMem with rfl | hLater
  · exact UInt64.le_refl _
  · exact (List.pairwise_cons.mp ordered).1 t hLater

/-- A sorted list is known by its parts at the single addresses. The head of either list is in the
other, so both heads start at one address and are the first there. -/
theorem eq_of_startingAt (ordered₁ : l₁.Pairwise (·.address ≤ ·.address))
    (ordered₂ : l₂.Pairwise (·.address ≤ ·.address))
    (hSame : ∀ address, startingAt address l₁ = startingAt address l₂) : l₁ = l₂ := by
  induction l₁ generalizing l₂ with
  | nil =>
      refine (List.eq_nil_iff_forall_not_mem.mpr fun s hMem => ?_).symm
      cases (mem_iff_of_startingAt hSame).mpr hMem
  | cons s rest₁ ih =>
      have hMem : s ∈ l₂ := (mem_iff_of_startingAt hSame).mp (List.mem_cons_self ..)
      cases l₂ with
      | nil => cases hMem
      | cons t rest₂ =>
          have hMem' : t ∈ s :: rest₁ := (mem_iff_of_startingAt hSame).mpr (List.mem_cons_self ..)
          have hAddress : s.address = t.address :=
            UInt64.le_antisymm (head_le ordered₁ hMem') (head_le ordered₂ hMem)
          have hHeads := hSame s.address
          simp only [startingAt, List.filter_cons, hAddress, beq_self_eq_true, if_true] at hHeads
          obtain rfl : s = t := (List.cons.inj hHeads).1
          refine congrArg (s :: ·) (ih (List.pairwise_cons.mp ordered₁).2
            (List.pairwise_cons.mp ordered₂).2 fun address => ?_)
          have hBoth : startingAt address ([s] ++ rest₁) = startingAt address ([s] ++ rest₂) :=
            hSame address
          rw [startingAt_append, startingAt_append] at hBoth
          exact List.append_cancel_left hBoth

theorem find?_congr {index other : SymbolIndex} (hSorted : index.sorted = other.sorted)
    (address : UInt64) : index.find? address = other.find? address := by
  rw [find?, find?, upTo, upTo, hSorted]

/-- The order counts only between functions of one address. -/
theorem sorted_foldl_congr
    (hSame : ∀ address, startingAt address l₁ = startingAt address l₂) :
    (l₁.foldl add empty).sorted = (l₂.foldl add empty).sorted := by
  refine eq_of_startingAt (stablySorted l₁).ordered (stablySorted l₂).ordered fun address => ?_
  rw [(stablySorted l₁).stable, (stablySorted l₂).stable, hSame]

/-- For names it counts only between functions of one name. -/
theorem findFunction?_foldl_congr {name : String}
    (hSame : l₁.filter (·.name == name) = l₂.filter (·.name == name)) :
    (l₁.foldl add empty).findFunction? name = (l₂.foldl add empty).findFunction? name := by
  rw [findFunction?_foldl, findFunction?_foldl, hSame]

/-- Where no two functions share a name or an address, an index answers the same in whatever order
they were added, and each of them is found under its name and at its start. -/
theorem answers_ignore_order (hPerm : l₁.Perm l₂) (hNames : (l₁.map (·.name)).Nodup)
    (hAddresses : (l₁.map (·.address)).Nodup) :
    let first := l₁.foldl add empty
    let second := l₂.foldl add empty
    first.sorted = second.sorted ∧
      (∀ address, first.find? address = second.find? address) ∧
      (∀ name, first.findFunction? name = second.findFunction? name) ∧
      first.count = second.count ∧
      ∀ s ∈ l₁, second.findFunction? s.name = some s.address ∧
        second.find? s.address = some (s, 0) := by
  intro first second
  have hSorted : first.sorted = second.sorted :=
    sorted_foldl_congr fun address => filter_key_eq_of_perm hPerm hAddresses address
  have hFound (name : String) : first.findFunction? name = second.findFunction? name :=
    findFunction?_foldl_congr (filter_key_eq_of_perm hPerm hNames name)
  refine ⟨hSorted, find?_congr hSorted, hFound, congrArg List.length hSorted, ?_⟩
  intro s hMem
  constructor
  · rw [← hFound, findFunction?_foldl, filter_key_eq_singleton hNames hMem]
    rfl
  · have hLast : (startingAt s.address l₁).getLast? = some s := by
      rw [startingAt, filter_key_eq_singleton hAddresses hMem, List.getLast?_singleton]
    rw [← find?_congr hSorted]
    exact find?_start hLast

theorem answers_ignore_order_rotated :
    let inner : FunctionSymbol := ⟨"inner", 0x1100, 0x10⟩
    let outer : FunctionSymbol := ⟨"outer", 0x1000, 0x1000⟩
    let after : FunctionSymbol := ⟨"after", 0x2000, 0⟩
    [inner, outer, after].Perm [outer, after, inner] ∧
      ([inner, outer, after].map (·.name)).Nodup ∧
      ([inner, outer, after].map (·.address)).Nodup ∧
      ([outer, after, inner].foldl add empty).sorted = [outer, inner, after] ∧
      ([outer, after, inner].foldl add empty).find? 0x1100 = some (inner, 0) := by
  intro inner outer after
  have hPerm : ([inner] ++ [outer, after]).Perm ([outer, after] ++ [inner]) :=
    List.perm_append_comm
  have hNames : ([inner, outer, after].map (·.name)).Nodup := by decide
  have hAddresses : ([inner, outer, after].map (·.address)).Nodup := by decide
  obtain ⟨hSorted, -, -, -, hEach⟩ := answers_ignore_order hPerm hNames hAddresses
  exact ⟨hPerm, hNames, hAddresses, hSorted.symm.trans (by decide),
    (hEach inner (List.mem_cons_self ..)).2⟩

end Supervisor.SymbolIndex
