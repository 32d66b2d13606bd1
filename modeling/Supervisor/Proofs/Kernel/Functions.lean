import Supervisor.Proofs.Kernel.Operations
import Supervisor.Proofs.Loading.Pointers
import Supervisor.Proofs.SymbolIndex.Order

/-! The functions that a kernel loads. It has the index of the whole image, or keeps the one that it
had before. -/

namespace Supervisor

namespace SymbolIndex

open Loading

variable {image : Elf.Image}

/-- The functions of an image are its entries with a name that is text. -/
theorem length_functions (image : Elf.Image) : (functions image).length =
    (symbolsThat image isIndexed).countP fun s => (symbolText? image s).isSome := by
  unfold functions
  split
  · next names hNames =>
      rw [List.length_filterMap_eq_countP]
      congr 1
      funext s
      rw [function?, Option.isSome_map, symbolText?_eq hNames]
  · next hNone => simp [symbolText?_eq_none hNone]

end SymbolIndex

namespace Kernel

open Effect Elf Loading SymbolIndex

variable {c : Capacity} {μ : Type}

/-- A kernel has the index that was read, and its own if the reading was refused. -/
theorem loadSymbols_follows (k : Kernel c μ) (file : Buffer) :
    let reading := (ofImage file).outcome ()
    let loading := (loadSymbols file).outcome k
    (∀ error, reading.result = .error (.refused error) →
        loading = ⟨[], .ok (.error error), k⟩) ∧
      ∀ index, reading.result = .ok index →
        loading = ⟨[], .ok (.ok index.count), { k with symbols := index }⟩ := by
  intro reading loading
  rcases ofImage_cases file with ⟨error, hEnds⟩ | ⟨image, -, hEnds⟩
  · have hReading : reading = ⟨[], .error (.refused error), ()⟩ := hEnds.outcome_eq
    rw [hReading]
    constructor
    · rintro _ ⟨⟩
      exact (loadSymbols_refuses hEnds k).outcome_eq
    · rintro _ ⟨⟩
  · have hReading : reading = ⟨[], .ok _, ()⟩ := hEnds.outcome_eq
    rw [hReading]
    constructor
    · rintro _ ⟨⟩
    · rintro _ ⟨⟩
      exact (loadSymbols_replaces hEnds k).outcome_eq

/-- Reading gives an index of the functions with an address exactly if these and all symbol tables
meet what is required of them, and otherwise the error of the first requirement that fails. The
kernel has the index that was read, or is as it was. -/
theorem loadSymbols_exact (k : Kernel c μ) (file : Buffer) :
    let reading := (ofImage file).outcome ()
    let loading := (loadSymbols file).outcome k
    (∀ stop, Image.parse file = .error stop →
        (∃ error, stop = .refused error) ∧ reading = ⟨[], .error stop, ()⟩) ∧
      (∀ image, Image.parse file = .ok image →
        (∀ stop, image.symbolNames = .error stop →
          (∃ error, stop = .refused error) ∧ reading = ⟨[], .error stop, ()⟩) ∧
        (image.symbolNames = .ok none → reading = ⟨[], .ok .empty, ()⟩) ∧
        ∀ names, image.symbolNames = .ok (some names) →
          let checks := Stage.requirements image.file (functionRequirements names)
          let allMet := ∀ stage ∈ stages image isIndexed, ∀ r ∈ checks stage, r.holds
          ((∃ index, reading.result = .ok index) ↔ allMet) ∧
          (allMet → ∃ index, reading = ⟨[], .ok index, ()⟩ ∧
            StablySorted index.sorted (functions image) ∧
            index.count =
              (symbolsThat image isIndexed).countP (fun s => (symbolText? image s).isSome) ∧
            ∀ name, index.findFunction? name = functionNamed? image name) ∧
          ∀ before stage after met r unmet,
            stages image isIndexed = before ++ stage :: after →
            (∀ earlier ∈ before, ∀ r ∈ checks earlier, r.holds) →
            checks stage = met ++ r :: unmet → (∀ m ∈ met, m.holds) → ¬ r.holds →
            reading = ⟨[], .error (.refused r.error), ()⟩) ∧
      (∀ error, reading.result = .error (.refused error) →
        loading = ⟨[], .ok (.error error), k⟩) ∧
      ∀ index, reading.result = .ok index →
        loading = ⟨[], .ok (.ok index.count), { k with symbols := index }⟩ := by
  intro reading loading
  refine ⟨?_, ?_, loadSymbols_follows k file⟩
  · intro stop hStop
    exact ⟨(Image.quiet_parse file).exists_refused hStop, (ofImage_unparsed hStop).outcome_eq⟩
  · intro image hParse
    refine ⟨?_, ?_, ?_⟩
    · intro stop hStop
      exact ⟨image.quiet_symbolNames.exists_refused hStop,
        (ofImage_unreadable hParse hStop).outcome_eq⟩
    · intro hNone
      exact (ofImage_nameless hParse hNone).outcome_eq
    · intro names hNames checks allMet
      refine ⟨ofImage_eq_ok_iff hParse hNames, ?_, ?_⟩
      · intro hAll
        have sorted := stablySorted (functions image)
        exact ⟨_, (ofImage_pass hParse hNames hAll).outcome_eq, sorted,
          sorted.perm.length_eq.trans (length_functions image), findFunction?_functions image⟩
      · intro before stage after met r unmet hSplit hBefore hChecks hMet hFails
        have hUnmet : unmet? (checks stage) = some r.error := by
          rw [hChecks, unmet?_of_split hMet hFails]
        exact (ofImage_fail hParse hNames hSplit hBefore hUnmet).outcome_eq

namespace Sample

open Loading.Sample

theorem functions_linked : stages (.ofFile linked) isIndexed =
    [.table symbolsHeader, .entry functionF, .entry laterF] := by
  decide +kernel

def misnamed : Buffer where
  bytes := (linkedBytes.set 285 13).toArray
  size_lt := by
    rw [List.size_toArray, List.length_set]
    exact linked.size_lt

theorem parse_misnamed : Image.parse misnamed = .ok (.ofFile misnamed) := by
  rw [Image.parse_eq, checkAll_eq_ok.mpr (by decide +kernel)]
  rfl

theorem symbolNames_misnamed :
    (Image.ofFile misnamed).symbolNames = .ok (some ⟨nameBytes.toArray⟩) :=
  eq_ok_of_toOption (by decide +kernel)

theorem functions_misnamed : stages (.ofFile misnamed) isIndexed =
    [.table symbolsHeader, .entry functionF, .entry { laterF with name := 13 }] := by
  decide +kernel

theorem loadSymbols_exact_misnamed :
    let k : Kernel ⟨1, by decide⟩ Unit := new
    let loading := (loadSymbols linked).outcome k
    (∃ index, loading = ⟨[], .ok (.ok 2), { k with symbols := index }⟩ ∧
      index.findFunction? "f" = some 0x1008) ∧
      (loadSymbols misnamed).outcome loading.state =
        ⟨[], .ok (.error .invalidSymbolName), loading.state⟩ := by
  intro k loading
  constructor
  · obtain ⟨-, hRead, -, hLoads⟩ := loadSymbols_exact k linked
    obtain ⟨-, hPass, -⟩ := (hRead _ parse_linked).2.2 _ symbolNames_linked
    obtain ⟨index, hReading, -, hCount, hFound⟩ := hPass (by
      rw [functions_linked]
      decide +kernel)
    have hTwo : index.count = 2 := by
      rw [hCount, ← entriesOf_stages, functions_linked]
      decide +kernel
    refine ⟨index, ?_, ?_⟩
    · rw [← hTwo]
      exact hLoads index (congrArg Outcome.result hReading)
    · rw [hFound, functionNamed?, ← entriesOf_stages, functions_linked]
      decide +kernel
  · obtain ⟨-, hRead, hRefused, -⟩ := loadSymbols_exact loading.state misnamed
    obtain ⟨-, -, hFail⟩ := (hRead _ parse_misnamed).2.2 _ symbolNames_misnamed
    have hReading : (ofImage misnamed).outcome () =
        ⟨[], .error (.refused .invalidSymbolName), ()⟩ :=
      hFail [.table symbolsHeader, .entry functionF] (.entry { laterF with name := 13 }) []
        [] _ [] functions_misnamed (by decide +kernel) rfl (by decide) (by decide +kernel)
    exact hRefused _ (congrArg Outcome.result hReading)

end Sample

end Kernel

end Supervisor
