import Supervisor.Loading.Binding
import Supervisor.Proofs.Loading.Segments

/-! What binding does. A pointer that passes its two checks is written once if a function of its
name is known; the first that fails ends binding. -/

namespace Supervisor

/-- All that is written lies between the start and the end of the span. -/
def Write.Within (w : Write) (span : Span) : Prop :=
  span.start.toNat ≤ w.start ∧ w.start + w.length ≤ span.stop.toNat

namespace Loading

open Effect Elf

variable {image : Image} {names : StringTable} {span : Span} {resolve : Resolver}
  {file : Buffer} {limit : UInt64}

/-- The address that a pointer with this name is bound to. -/
def known? (resolve : Resolver) (name : Array UInt8) : Option UInt64 :=
  (nameText? name).bind resolve

/-- The first check that the pointer fails. -/
def pointerFault? (names : StringTable) (span : Span) (s : Symbol) : Option Elf.Error :=
  if (names.get? s.name).isNone then some .invalidSymbolName
  else if span.contains s.value pointerSize then none
  else some .symbolOutsideImage

/-- The write for a pointer, if it passes and a function of its name is known. -/
def pointerWrites (names : StringTable) (span : Span) (resolve : Resolver) (s : Symbol) :
    List Write :=
  if (pointerFault? names span s).isNone then
    (((names.get? s.name).bind (known? resolve)).map (Write.word s.value)).toList
  else []

/-- The number of pointers bound, this one counted if it is written. -/
def countPointer (names : StringTable) (span : Span) (resolve : Resolver) (bound : Nat)
    (s : Symbol) : Nat :=
  bound + (pointerWrites names span resolve s).length

theorem bindSymbol_ends (names : StringTable) (span : Span) (resolve : Resolver) (bound : Nat)
    (s : Symbol) :
    (bindSymbol names span resolve bound s).Ends () (pointerWrites names span resolve s)
      ((passing (pointerFault? names span s)
        (countPointer names span resolve bound s)).mapError .refused) () := by
  unfold bindSymbol countPointer pointerWrites pointerFault?
  cases hName : names.get? s.name with
  | none => exact (ends_lift (.error _) ()).bind_stop
  | some name =>
      apply (ends_lift (.ok name) ()).andThen
      by_cases hInside : span.contains s.value pointerSize = true
      · rw [hInside]
        apply (ends_lift (.ok ()) ()).andThen
        simp only [Option.isNone_some, Bool.false_eq_true, if_false, if_true, Option.isNone_none,
          Option.bind_some, known?]
        cases nameText? name with
        | none => exact Ends.pure bound ()
        | some text =>
            simp only [Option.bind_some]
            cases resolve text with
            | none => exact Ends.pure bound ()
            | some address =>
                exact (ends_log _ _ ()).andThen ((ends_write _ ()).bind (Ends.pure _ ()))
      · rw [Bool.eq_false_iff.mpr hInside]
        exact (ends_lift (.error _) ()).bind_stop

theorem pointerWrites_within {w : Write} {s : Symbol}
    (hMem : w ∈ pointerWrites names span resolve s) : w.Within span := by
  unfold pointerWrites pointerFault? at hMem
  cases hName : names.get? s.name with
  | none => simp [hName] at hMem
  | some name =>
      by_cases hInside : span.contains s.value pointerSize = true
      · have hWord : w.start = s.value.toNat ∧ w.length = 8 := by
          simp only [hName, hInside, Option.isNone_some, Bool.false_eq_true, if_false, if_true,
            Option.isNone_none, Option.mem_toList, Option.map_eq_some_iff] at hMem
          obtain ⟨address, -, hEq⟩ := hMem
          rw [← hEq]
          exact ⟨rfl, Write.length_word _ _⟩
        simp only [Span.contains, Bool.and_eq_true, decide_eq_true_eq,
          UInt64.le_iff_toNat_le] at hInside
        rw [Write.Within, hWord.1, hWord.2]
        exact hInside
      · simp [hName, hInside] at hMem

theorem length_pointerWrites_le (s : Symbol) :
    (pointerWrites names span resolve s).length ≤ 1 := by
  unfold pointerWrites
  split
  · cases (names.get? s.name).bind (known? resolve) <;> simp
  · exact Nat.zero_le 1

/-- The pointers of a symbol table, none if the table is refused. -/
def pointers (image : Image) (table : Section) : List Symbol :=
  match image.symbols table with
  | .ok entries => entries.filter isBindable
  | .error _ => []

/-- The reason why a table is refused, or else the first failure among its pointers. -/
def tableFault? (image : Image) (names : StringTable) (span : Span) (table : Section) :
    Option Elf.Error :=
  match image.symbols table with
  | .error (.refused error) => some error
  | _ => (pointers image table).findSome? (pointerFault? names span)

def tableWrites (image : Image) (names : StringTable) (span : Span) (resolve : Resolver)
    (table : Section) : List Write :=
  emitted (pointerFault? names span) (pointerWrites names span resolve) (pointers image table)

def countTable (image : Image) (names : StringTable) (span : Span) (resolve : Resolver)
    (bound : Nat) (table : Section) : Nat :=
  (pointers image table).foldl (countPointer names span resolve) bound

theorem bindTable_ends (image : Image) (names : StringTable) (span : Span) (resolve : Resolver)
    (bound : Nat) (table : Section) :
    (bindTable image names span resolve bound table).Ends ()
      (tableWrites image names span resolve table)
      ((passing (tableFault? image names span table)
        (countTable image names span resolve bound table)).mapError .refused) () := by
  obtain ⟨found, hFound⟩ := (image.quiet_symbols table).exists_eq
  unfold bindTable tableWrites tableFault? countTable pointers
  rw [hFound]
  cases found with
  | error error => exact (ends_lift (.error _) ()).bind_stop
  | ok entries =>
      exact (ends_lift (.ok entries) ()).andThen (foldlM_ends _ _
        (bindSymbol_ends names span resolve) (entries.filter isBindable) bound)

/-- A file of so many bytes has no more pointers in one table than entries fit in it. -/
theorem length_tableWrites_le (table : Section) :
    (tableWrites image names span resolve table).length ≤
      image.file.size / Packed.width Symbol := by
  have hEach := length_emitted_le (pointerFault? names span) (pointerWrites names span resolve)
    (l := pointers image table) (fun s _ => length_pointerWrites_le s)
  rw [Nat.mul_one] at hEach
  apply Nat.le_trans hEach
  unfold pointers
  cases hFound : image.symbols table with
  | error stop => exact Nat.zero_le _
  | ok entries =>
      have hRoom := Nat.mul_comm _ _ ▸ Image.symbols_eq_ok hFound
      exact Nat.le_trans (List.length_filter_le _ _) ((Nat.le_div_iff_mul_le (by decide)).mpr hRoom)

/-- The writes for the pointers of an image. -/
def boundWrites (image : Image) (span : Span) (resolve : Resolver) : List Write :=
  match image.symbolNames with
  | .ok (some names) =>
      emitted (tableFault? image names span) (tableWrites image names span resolve)
        image.symbolTables
  | _ => []

/-- What binding gives: the number of pointers bound, or the first failure. -/
def boundCount (image : Image) (span : Span) (resolve : Resolver) : Except Elf.Error Nat :=
  match image.symbolNames with
  | .error (.refused error) => .error error
  | .ok (some names) =>
      passing (image.symbolTables.findSome? (tableFault? image names span))
        (image.symbolTables.foldl (countTable image names span resolve) 0)
  | _ => .ok 0

theorem bindFunctions_ends (image : Image) (span : Span) (resolve : Resolver) :
    (bindFunctions image span resolve).Ends () (boundWrites image span resolve)
      ((boundCount image span resolve).mapError .refused) () := by
  obtain ⟨found, hFound⟩ := image.quiet_symbolNames.exists_eq
  unfold bindFunctions boundWrites boundCount
  rw [hFound]
  cases found with
  | error error => exact (ends_lift (.error _) ()).bind_stop
  | ok names? =>
      apply (ends_lift (.ok _) ()).andThen
      cases names? with
      | none => exact (ends_log _ _ ()).andThen (Ends.pure 0 ())
      | some names =>
          exact foldlM_ends _ _ (bindTable_ends image names span resolve) image.symbolTables 0

theorem boundWrites_within {w : Write} (hMem : w ∈ boundWrites image span resolve) :
    w.Within span := by
  unfold boundWrites at hMem
  split at hMem
  · obtain ⟨table, -, hTable⟩ := mem_emitted _ _ hMem
    obtain ⟨s, -, hPointer⟩ := mem_emitted _ _ hTable
    exact pointerWrites_within hPointer
  · cases hMem

theorem length_symbolTables_le (image : Image) : image.symbolTables.length ≤ 65535 := by
  have hSections : image.sections.length ≤ image.header.sectionCount.toNat := by
    have hLength := List.length_filterMap_le image.getSection?
      (List.range image.header.sectionCount.toNat)
    rwa [List.length_range] at hLength
  have hTables : image.symbolTables.length ≤ image.sections.length :=
    List.length_filter_le _ _
  have hCount := image.header.sectionCount.toNat_lt
  omega

theorem length_boundWrites_le (image : Image) (span : Span) (resolve : Resolver) :
    (boundWrites image span resolve).length ≤
      65535 * (image.file.size / Packed.width Symbol) := by
  unfold boundWrites
  split
  · next names _ =>
      have hEach := length_emitted_le (tableFault? image names span)
        (tableWrites image names span resolve) (l := image.symbolTables)
        (fun table _ => length_tableWrites_le table)
      exact Nat.le_trans hEach (Nat.mul_le_mul_right _ (length_symbolTables_le image))
  · exact Nat.zero_le _

end Loading

end Supervisor
