import Supervisor.Loading.Binding
import Supervisor.Proofs.Elf.Symbols

/-! The way through the symbols of an image. The first requirement that fails is the end, and what
was done up to there stays done. -/

namespace Supervisor

/-- The program that goes through lists one after the other goes through all of them as one. -/
theorem foldlM_flatMap {m : Type → Type} [Monad m] [LawfulMonad m] {α β γ : Type}
    (f : α → List γ) (visit : β → γ → m β) (l : List α) (b : β) :
    (l.flatMap f).foldlM visit b = l.foldlM (fun b a => (f a).foldlM visit b) b := by
  induction l generalizing b with
  | nil => rfl
  | cons a rest ih => simp only [List.flatMap_cons, List.foldlM_append, List.foldlM_cons, ih]

namespace Loading

open Effect Elf

variable {β : Type}

/-- A place on the way through the symbols. -/
inductive Stage where
  | table (s : Section)
  | entry (s : Symbol)
deriving DecidableEq

namespace Stage

def entry? : Stage → Option Symbol
  | table _ => none
  | entry s => some s

/-- What is required at a stage, if so much is required of an entry. -/
def requirements (file : Buffer) (checks : Symbol → List (Requirement Elf.Error)) :
    Stage → List (Requirement Elf.Error)
  | table s => symbolTableRequirements file s
  | entry s => checks s

/-- The writes made at a stage, if these are made for an entry. -/
def writes (entryWrites : Symbol → List Write) : Stage → List Write
  | table _ => []
  | entry s => entryWrites s

/-- What is known after a stage, if this is known after an entry. -/
def next (entryNext : β → Symbol → β) (b : β) : Stage → β
  | table _ => b
  | entry s => entryNext b s

def pass (image : Image) (visit : β → Symbol → Load β) (b : β) : Stage → Load β
  | table s => do
    Effect.lift (checkAll (symbolTableRequirements image.file s))
    pure b
  | entry s => visit b s

end Stage

def entriesOf (l : List Stage) : List Symbol := l.filterMap Stage.entry?

/-- The stages of the way through the symbols of an image. -/
def stages (image : Image) (matters : Symbol → Bool) : List Stage :=
  image.symbolTables.flatMap fun s =>
    .table s :: ((s.entries image.file).filter matters).map .entry

def symbolsThat (image : Image) (matters : Symbol → Bool) : List Symbol :=
  image.symbolTables.flatMap fun s => (s.entries image.file).filter matters

@[simp] theorem entriesOf_stages (image : Image) (matters : Symbol → Bool) :
    entriesOf (stages image matters) = symbolsThat image matters := by
  simp only [entriesOf, stages, symbolsThat, List.filterMap_flatMap, List.filterMap_cons,
    Stage.entry?, List.filterMap_map, Function.comp_def, List.filterMap_some]

/-- The name of a symbol, if the image has names of symbols and this one is text. -/
def symbolText? (image : Image) (s : Symbol) : Option String :=
  match image.symbolNames with
  | .ok (some names) => (names.get? s.name).bind nameText?
  | _ => none

theorem symbolText?_eq {image : Image} {names : StringTable}
    (hNames : image.symbolNames = .ok (some names)) (s : Symbol) :
    symbolText? image s = (names.get? s.name).bind nameText? := by
  rw [symbolText?, hNames]

theorem symbolText?_eq_none {image : Image}
    (hNone : ∀ names, image.symbolNames ≠ .ok (some names)) (s : Symbol) :
    symbolText? image s = none := by
  unfold symbolText?
  split
  · next names hNames => exact absurd hNames (hNone names)
  · rfl

variable {image : Image} {matters : Symbol → Bool} {visit : β → Symbol → Load β}
  {checks : Symbol → List (Requirement Elf.Error)} {writes : Symbol → List Write}
  {next : β → Symbol → β} {b : β}

/-- Whatever is made for the entries among some stages is all that is made there. -/
theorem flatMap_writes (l : List Stage) :
    l.flatMap (Stage.writes writes) = (entriesOf l).flatMap writes := by
  induction l with
  | nil => rfl
  | cons stage rest ih =>
      cases stage with
      | table s => exact ih
      | entry s => exact congrArg (writes s ++ ·) ih

theorem foldl_next (l : List Stage) :
    l.foldl (Stage.next next) b = (entriesOf l).foldl next b := by
  induction l generalizing b with
  | nil => rfl
  | cons stage rest ih =>
      cases stage with
      | table s => exact ih
      | entry s => exact ih

/-- Goes through the entries of one table. -/
def visitTable (image : Image) (matters : Symbol → Bool) (visit : β → Symbol → Load β) (b : β)
    (table : Section) : Load β := do
  let symbols ← Effect.lift (image.symbols table)
  (symbols.filter matters).foldlM visit b

theorem visitTable_eq (image : Image) (matters : Symbol → Bool) (visit : β → Symbol → Load β)
    (b : β) (s : Section) : visitTable image matters visit b s =
      (Stage.table s :: ((s.entries image.file).filter matters).map .entry).foldlM
        (Stage.pass image visit) b := by
  simp only [visitTable, image.symbols_eq, List.foldlM_cons, List.foldlM_map, Stage.pass]
  cases checkAll (symbolTableRequirements image.file s) <;> rfl

/-- Going through the tables is going through the stages. -/
theorem foldlM_tables (image : Image) (matters : Symbol → Bool) (visit : β → Symbol → Load β)
    (b : β) : image.symbolTables.foldlM (visitTable image matters visit) b =
      (stages image matters).foldlM (Stage.pass image visit) b := by
  rw [stages, foldlM_flatMap]
  congr 1
  funext b s
  exact visitTable_eq image matters visit b s

/-- Where not all stages meet their requirements, one is the first that does not. -/
theorem exists_first_unmet {l : List Stage} {file : Buffer}
    (hNot : ¬ ∀ stage ∈ l, ∀ r ∈ stage.requirements file checks, r.holds) :
    ∃ before stage after error, l = before ++ stage :: after ∧
      (∀ earlier ∈ before, ∀ r ∈ earlier.requirements file checks, r.holds) ∧
      unmet? (stage.requirements file checks) = some error := by
  cases hFirst : l.findSome? (fun stage => unmet? (stage.requirements file checks)) with
  | none =>
      have hPass := List.findSome?_eq_none_iff.mp hFirst
      exact absurd (fun stage hMem => unmet?_eq_none_iff.mp (hPass stage hMem)) hNot
  | some error =>
      obtain ⟨before, stage, after, hSplit, hUnmet, hPass⟩ := List.findSome?_eq_some_iff.mp hFirst
      exact ⟨before, stage, after, error, hSplit,
        fun earlier hMem => unmet?_eq_none_iff.mp (hPass earlier hMem), hUnmet⟩

section Ends

variable (hVisit : ∀ b s, (visit b s).Ends () (writes s)
  ((passing (unmet? (checks s)) (next b s)).mapError .refused) ())

include hVisit

theorem pass_ends (image : Image) (b : β) (stage : Stage) :
    (stage.pass image visit b).Ends () (stage.writes writes)
      ((passing (unmet? (stage.requirements image.file checks))
        (stage.next next b)).mapError .refused) () := by
  cases stage with
  | entry s => exact hVisit b s
  | table s =>
      have hChecked : (lift _).Ends () [] _ () :=
        ends_lift (checkAll (symbolTableRequirements image.file s)) ()
      rw [checkAll_eq_passing] at hChecked
      rw [Stage.pass, checkAll_eq_passing]
      simp only [Stage.requirements]
      cases hUnmet : unmet? (symbolTableRequirements image.file s) with
      | none =>
          rw [hUnmet] at hChecked
          exact hChecked.andThen (Ends.pure b ())
      | some error =>
          rw [hUnmet] at hChecked
          exact hChecked.bind_stop

/-- Where everything on the way meets its requirements, all entries are visited. -/
theorem tables_pass (hAll : ∀ stage ∈ stages image matters,
    ∀ r ∈ stage.requirements image.file checks, r.holds) (b : β) :
    (image.symbolTables.foldlM (visitTable image matters visit) b).Ends ()
      ((symbolsThat image matters).flatMap writes)
      (.ok ((symbolsThat image matters).foldl next b)) () := by
  have hPass : (stages image matters).findSome?
      (fun stage => unmet? (stage.requirements image.file checks)) = none :=
    List.findSome?_eq_none_iff.mpr fun stage hMem => unmet?_eq_none_iff.mpr (hAll stage hMem)
  have hEnds := foldlM_ends _ _ (pass_ends hVisit image) (stages image matters) b
  rw [foldlM_tables, ← entriesOf_stages, ← flatMap_writes, ← foldl_next,
    ← emitted_eq_flatMap _ _ hPass]
  rw [hPass] at hEnds
  exact hEnds

/-- The first requirement that fails is the end of the way. -/
theorem tables_fail {before after : List Stage} {stage : Stage} {error : Elf.Error}
    (hSplit : stages image matters = before ++ stage :: after)
    (hBefore : ∀ earlier ∈ before, ∀ r ∈ earlier.requirements image.file checks, r.holds)
    (hUnmet : unmet? (stage.requirements image.file checks) = some error) (b : β) :
    (image.symbolTables.foldlM (visitTable image matters visit) b).Ends ()
      ((entriesOf before).flatMap writes ++ stage.writes writes)
      (.error (.refused error)) () := by
  have hPass : ∀ earlier ∈ before,
      unmet? (earlier.requirements image.file checks) = none :=
    fun earlier hMem => unmet?_eq_none_iff.mpr (hBefore earlier hMem)
  have hEnds := foldlM_ends _ _ (pass_ends hVisit image) (stages image matters) b
  rw [foldlM_tables, ← flatMap_writes]
  have hFirst : (before ++ stage :: after).findSome?
      (fun stage => unmet? (stage.requirements image.file checks)) = some error :=
    List.findSome?_eq_some_iff.mpr ⟨before, stage, after, rfl, hUnmet, hPass⟩
  rw [hSplit, emitted_of_first _ _ hPass hUnmet, hFirst] at hEnds
  rw [hSplit]
  exact hEnds

end Ends

end Loading

end Supervisor
