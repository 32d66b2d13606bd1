import Supervisor.Proofs.Loading.Traversal
import Supervisor.SymbolIndex

/-! The index of an image. It is filled on the same way through the symbols that binding takes, and
a name leads to the function that was added last under it. -/

namespace Supervisor.SymbolIndex

open Effect Elf Loading

variable {image : Image} {names : StringTable} {file : Buffer} {name : String}

/-- Whether an entry belongs into the index: a function with an address. -/
def isIndexed (s : Symbol) : Bool := s.isFunction && s.value != 0

def functionRequirements (names : StringTable) (s : Symbol) : List (Requirement Elf.Error) :=
  [⟨.invalidSymbolName, s.name.toNat < names.size⟩]

/-- The function that an entry stands for, if its name is text. -/
def function? (names : StringTable) (s : Symbol) : Option FunctionSymbol :=
  ((names.get? s.name).bind nameText?).map fun name => ⟨name, s.value, s.size⟩

def withEntry (names : StringTable) (index : SymbolIndex) (s : Symbol) : SymbolIndex :=
  (function? names s).elim index index.add

/-- A name leads to the function that was added last under it. -/
theorem findFunction?_foldl (l : List FunctionSymbol) (index : SymbolIndex) (name : String) :
    (l.foldl add index).findFunction? name =
      ((l.filter (·.name == name)).getLast?.map (·.address)).or (index.findFunction? name) := by
  induction l generalizing index with
  | nil => rfl
  | cons s rest ih =>
      rw [List.foldl_cons, ih]
      have hAdd : (index.add s).findFunction? name =
          if name == s.name then some s.address else index.findFunction? name := by
        rw [findFunction?, add, List.lookup_cons]
        cases name == s.name <;> rfl
      rw [hAdd]
      by_cases hName : s.name = name
      · simp only [hName, beq_self_eq_true, if_true, List.filter_cons_of_pos, List.getLast?_cons]
        cases (rest.filter (·.name == name)).getLast? <;> rfl
      · rw [List.filter_cons_of_neg (by simpa using hName),
          if_neg (by simpa using Ne.symm hName)]

/-- Adds the function of an entry that belongs into the index. -/
def addFunction (names : StringTable) (index : SymbolIndex) (s : Symbol) : Load SymbolIndex := do
  let name ← Effect.lift (Stop.ofOption .invalidSymbolName (names.get? s.name))
  match nameText? name with
  | none => pure index
  | some name => pure (index.add ⟨name, s.value, s.size⟩)

theorem addEntry_eq (names : StringTable) (index : SymbolIndex) (s : Symbol) :
    addEntry names index s =
      if isIndexed s then addFunction names index s else pure index := by
  have hCondition : (!s.isFunction || s.value == 0) = !isIndexed s := by
    simp [isIndexed, bne]
  rw [addEntry, hCondition]
  cases isIndexed s <;> rfl

/-- Adding the functions of a table is one part of the way through the symbols. -/
theorem addTable_eq (image : Image) (names : StringTable) :
    addTable image names = visitTable image isIndexed (addFunction names) := by
  funext index table
  unfold addTable visitTable
  congr 1
  funext symbols
  rw [List.foldlM_filter]
  congr 1
  funext index s
  exact addEntry_eq names index s

theorem addFunction_ends (terminated : names.Terminated) (index : SymbolIndex) (s : Symbol) :
    (addFunction names index s).Ends () []
      ((passing (unmet? (functionRequirements names s)) (withEntry names index s)).mapError
        .refused) () := by
  have hName : (names.get? s.name).isSome ↔ s.name.toNat < names.size :=
    StringTable.get?_isSome_iff terminated
  rw [functionRequirements, unmet?_cons]
  unfold addFunction withEntry function?
  cases hFound : names.get? s.name with
  | none =>
      rw [if_neg (by simpa [hFound] using hName)]
      exact (ends_lift (.error _) ()).bind_stop
  | some name =>
      rw [if_pos (by simpa [hFound] using hName)]
      apply (ends_lift (.ok name) ()).andThen
      simp only [Option.bind_some]
      cases nameText? name with
      | none => exact Ends.pure index ()
      | some text => exact Ends.pure _ ()

/-- The functions of an image in the order of the way through its symbols. -/
def functions (image : Image) : List FunctionSymbol :=
  match image.symbolNames with
  | .ok (some names) => (symbolsThat image isIndexed).filterMap (function? names)
  | _ => []

theorem foldl_withEntry (names : StringTable) (l : List Symbol) (index : SymbolIndex) :
    l.foldl (withEntry names) index = (l.filterMap (function? names)).foldl add index := by
  induction l generalizing index with
  | nil => rfl
  | cons s rest ih =>
      rw [List.foldl_cons, ih, List.filterMap_cons, withEntry]
      cases function? names s <;> rfl

theorem ofImage_unparsed {stop : Stop Elf.Error} (hParse : Image.parse file = .error stop) :
    (ofImage file).Ends () [] (.error stop) () := by
  unfold ofImage
  rw [hParse]
  exact (ends_lift (.error stop) ()).bind_stop

section Parsed

variable (hParse : Image.parse file = .ok image)

include hParse

theorem ofImage_unreadable {stop : Stop Elf.Error} (hNames : image.symbolNames = .error stop) :
    (ofImage file).Ends () [] (.error stop) () := by
  unfold ofImage
  rw [hParse]
  apply (ends_lift (.ok image) ()).andThen
  rw [hNames]
  exact (ends_lift (.error stop) ()).bind_stop

theorem ofImage_nameless (hNames : image.symbolNames = .ok none) :
    (ofImage file).Ends () [] (.ok empty) () := by
  unfold ofImage
  rw [hParse]
  apply (ends_lift (.ok image) ()).andThen
  rw [hNames]
  exact (ends_lift (.ok none) ()).andThen (Ends.pure empty ())

variable (hNames : image.symbolNames = .ok (some names))

include hNames

/-- The index is what comes out at the end of the way through the symbols. -/
theorem ofImage_named {r : Except (Stop Elf.Error) SymbolIndex}
    (hEnds : (image.symbolTables.foldlM
      (visitTable image isIndexed (addFunction names)) empty).Ends () [] r ()) :
    (ofImage file).Ends () [] r () := by
  rw [← addTable_eq] at hEnds
  unfold ofImage
  rw [hParse]
  apply (ends_lift (.ok image) ()).andThen
  rw [hNames]
  apply (ends_lift (.ok (some names)) ()).andThen
  cases r with
  | ok index => exact hEnds.andThen ((ends_log _ _ ()).andThen (Ends.pure index ()))
  | error stop => exact hEnds.bind_stop

/-- Where everything on the way meets its requirements, the index holds all functions. -/
theorem ofImage_pass (hAll : ∀ stage ∈ stages image isIndexed,
    ∀ r ∈ stage.requirements image.file (functionRequirements names), r.holds) :
    (ofImage file).Ends () [] (.ok ((functions image).foldl add empty)) () := by
  have hVisit := addFunction_ends (Image.terminated_of_symbolNames hNames)
  have hEnds := tables_pass hVisit hAll empty
  rw [List.flatMap_eq_nil_iff.mpr fun _ _ => rfl, foldl_withEntry] at hEnds
  rw [functions, hNames]
  exact ofImage_named hParse hNames hEnds

/-- Of the functions collected before a requirement that fails nothing remains. -/
theorem ofImage_fail {before after : List Stage} {stage : Stage} {error : Elf.Error}
    (hSplit : stages image isIndexed = before ++ stage :: after)
    (hBefore : ∀ earlier ∈ before,
      ∀ r ∈ earlier.requirements image.file (functionRequirements names), r.holds)
    (hUnmet : unmet? (stage.requirements image.file (functionRequirements names)) = some error) :
    (ofImage file).Ends () [] (.error (.refused error)) () := by
  have hVisit := addFunction_ends (Image.terminated_of_symbolNames hNames)
  have hEnds := tables_fail hVisit hSplit hBefore hUnmet empty
  have hStage : stage.writes (fun _ => []) = [] := by
    cases stage <;> rfl
  rw [List.flatMap_eq_nil_iff.mpr fun _ _ => rfl, hStage] at hEnds
  exact ofImage_named hParse hNames hEnds

theorem ofImage_eq_ok_iff : (∃ index, ((ofImage file).outcome ()).result = .ok index) ↔
    ∀ stage ∈ stages image isIndexed,
      ∀ r ∈ stage.requirements image.file (functionRequirements names), r.holds := by
  constructor
  · rintro ⟨index, hIndex⟩
    refine Classical.byContradiction fun hNot => ?_
    obtain ⟨before, stage, after, error, hSplit, hBefore, hUnmet⟩ := exists_first_unmet hNot
    rw [(ofImage_fail hParse hNames hSplit hBefore hUnmet).outcome_eq] at hIndex
    cases hIndex
  · intro hAll
    exact ⟨_, congrArg Outcome.result (ofImage_pass hParse hNames hAll).outcome_eq⟩

end Parsed

/-- An image is refused, or its index holds its functions. -/
theorem ofImage_cases (file : Buffer) :
    (∃ error, (ofImage file).Ends () [] (.error (.refused error)) ()) ∨
      ∃ image, Image.parse file = .ok image ∧
        (ofImage file).Ends () [] (.ok ((functions image).foldl add empty)) () := by
  obtain ⟨parsed, hParse⟩ := (Image.quiet_parse file).exists_eq
  cases parsed with
  | error error => exact .inl ⟨error, ofImage_unparsed hParse⟩
  | ok image =>
      obtain ⟨found, hNames⟩ := image.quiet_symbolNames.exists_eq
      match found with
      | .error error => exact .inl ⟨error, ofImage_unreadable hParse hNames⟩
      | .ok none =>
          have hNone : functions image = [] := by
            rw [functions, hNames]
            rfl
          exact .inr ⟨image, hParse, hNone ▸ ofImage_nameless hParse hNames⟩
      | .ok (some names) =>
          by_cases hAll : ∀ stage ∈ stages image isIndexed,
              ∀ r ∈ stage.requirements image.file (functionRequirements names), r.holds
          · exact .inr ⟨image, hParse, ofImage_pass hParse hNames hAll⟩
          · obtain ⟨before, stage, after, error, hSplit, hBefore, hUnmet⟩ :=
              exists_first_unmet hAll
            exact .inl ⟨error, ofImage_fail hParse hNames hSplit hBefore hUnmet⟩

/-- The address of the last function of an image that has a name. -/
def functionNamed? (image : Image) (name : String) : Option UInt64 :=
  ((symbolsThat image isIndexed).filter fun s => symbolText? image s == some name).getLast?.map
    (·.value)

/-- The functions of a name are the entries of that name. -/
theorem map_address_filter (hNames : image.symbolNames = .ok (some names)) (name : String)
    (l : List Symbol) :
    ((l.filterMap (function? names)).filter (·.name == name)).map (·.address) =
      (l.filter fun s => symbolText? image s == some name).map (·.value) := by
  induction l with
  | nil => rfl
  | cons s rest ih =>
      rw [List.filterMap_cons, function?, List.filter_cons, symbolText?_eq hNames]
      cases (names.get? s.name).bind nameText? with
      | none => exact ih
      | some text =>
          simp only [Option.map_some, List.filter_cons]
          by_cases hName : text = name
          · simp [hName, ih]
          · simp [hName, ih]

/-- In the index of an image a name leads to the last function that has it. -/
theorem findFunction?_functions (image : Image) (name : String) :
    ((functions image).foldl add empty).findFunction? name = functionNamed? image name := by
  have hEmpty : empty.findFunction? name = none := rfl
  rw [findFunction?_foldl, hEmpty, Option.or_none, functionNamed?, ← List.getLast?_map,
    ← List.getLast?_map]
  congr 1
  unfold functions
  split
  · next names hNames => exact map_address_filter hNames name _
  · next hNone => simp [symbolText?_eq_none hNone]

end Supervisor.SymbolIndex
