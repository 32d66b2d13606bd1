import Supervisor.Proofs.Loading.Safety
import Supervisor.Proofs.Table.Lifecycle
import Supervisor.Table.Creation

/-! What creation does: it loads the file, and if that gives a span it allocates and sets the entry
point in the new record. -/

namespace Supervisor.Table

open Effect

variable {c : Capacity} {t t' : Table c} {slot : Nat} {e : Environment} {free : List Nat}
  {build : Build} {kind : Kind} {file : Buffer} {limit : UInt64} {resolver : Loading.Resolver}
  {writes : List Write} {span : Span}

/-- The loading that is part of creation. -/
def loading (build : Build) (file : Buffer) (limit : UInt64) (resolver : Loading.Resolver) :
    Loading.Load Span :=
  Loading.loadExecutable file limit (if build.sharedSpace then some resolver else none)

theorem create_rejects {error : Elf.Error}
    (hLoad : (loading build file limit resolver).Ends () writes (.error (.refused error)) ()) :
    (create build file kind limit resolver).Ends t writes (.error (.refused error.report)) t := by
  rw [← List.append_nil writes]
  have hAttempt := ends_attempt (ε := Error) (r := .error error) hLoad t
  exact hAttempt.bind ((ends_log _ _ t).andThen (ends_refuse _ t))

theorem create_refuses {stop : Stop Error}
    (hLoad : (loading build file limit resolver).Ends () writes (.ok span) ())
    (hAllocate : (allocate build .reserved kind).Ends t [] (.error stop) t') :
    (create build file kind limit resolver).Ends t writes (.error stop) t' := by
  rw [← List.append_nil writes]
  exact (ends_attempt (r := .ok span) hLoad t).bind hAllocate.bind_stop

/-- A file that is loaded starts where its header says. -/
theorem parse_of_loading
    (hLoad : (loading build file limit resolver).Ends () writes (.ok span) ()) :
    ∃ image, Elf.Image.parse file = .ok image ∧ span.entry = image.entry := by
  have hResult := congrArg Outcome.result hLoad.outcome_eq
  unfold loading at hResult
  cases hParse : Elf.Image.parse file with
  | error stop =>
      rw [(Loading.loadExecutable_stops hParse limit _).outcome_eq] at hResult
      cases hResult
  | ok image =>
      rw [(Loading.loadExecutable_ends hParse limit _).outcome_eq] at hResult
      cases hSpan : Loading.loadedSpan image limit
          (if build.sharedSpace then some resolver else none) with
      | error error =>
          rw [hSpan] at hResult
          cases hResult
      | ok found =>
          rw [hSpan] at hResult
          cases hResult
          exact ⟨image, rfl, Loading.entry_of_span (Loading.loadedSpan_eq_ok hSpan)⟩

/-- The address at which an executable starts, or zero if the file is none. -/
def entryOf (file : Buffer) : UInt64 :=
  match Elf.Image.parse file with
  | .ok image => image.entry
  | .error _ => 0

theorem entry_of_loading
    (hLoad : (loading build file limit resolver).Ends () writes (.ok span) ()) :
    span.entry = entryOf file := by
  obtain ⟨image, hParse, hEntry⟩ := parse_of_loading hLoad
  rw [entryOf, hParse]
  exact hEntry

/-- The handle of a new environment names its record. -/
theorem get?_allocated {parent : Handle} (hGet : t.get? slot = some e) :
    (t.allocated build slot e parent kind).get? ((e.handle.successor c slot).slotIn c) =
      some (.fresh build t.stackTop (e.handle.successor c slot) parent kind) := by
  rw [e.handle.slotIn_successor (lt_of_get? hGet)]
  exact get?_put_same hGet

/-- The table after a new environment was created that starts at an address. -/
def created (build : Build) (t : Table c) (slot : Nat) (old : Environment) (kind : Kind)
    (entry : UInt64) : Table c :=
  let e := Environment.fresh build t.stackTop (old.handle.successor c slot) .reserved kind
  t.granted slot old.link { e with frame := e.frame.set .rip entry }

/-- The entry point is all that creation sets in what the allocation left. -/
theorem created_eq_put {entry : UInt64} :
    t.created build slot e kind entry =
      let allocated := Environment.fresh build t.stackTop (e.handle.successor c slot) .reserved kind
      (t.allocated build slot e .reserved kind).put slot
        { allocated with frame := allocated.frame.set .rip entry } := by
  simp [created, allocated, granted, put]

/-- Once the file is loaded and a slot allocated, the record that the new handle names is given the
entry point. -/
theorem create_follows {handle : Handle}
    (hLoad : (loading build file limit resolver).Ends () writes (.ok span) ())
    (hAllocate : (allocate build .reserved kind).Ends t [] (.ok handle) t')
    (hGet : t'.get? (handle.slotIn c) = some e) :
    (create build file kind limit resolver).Ends t writes (.ok handle)
      (t'.put (handle.slotIn c) { e with frame := e.frame.set .rip span.entry }) := by
  rw [← List.append_nil writes]
  apply (ends_attempt (r := .ok span) hLoad t).bind
  apply hAllocate.andThen
  rw [Handle.slot_eq]
  refine (ends_orFault (.ok _) _).andThen ((changeSlot_ends hGet _).andThen ?_)
  exact Ends.pure _ _

theorem create_ends (sound : t.Sound (slot :: free)) (hGet : t.get? slot = some e)
    (hRoom : Layout.stackSize ≤ t.stackTop)
    (hLoad : (loading build file limit resolver).Ends () writes (.ok span) ()) :
    (create build file kind limit resolver).Ends t writes (.ok (e.handle.successor c slot))
      (t.created build slot e kind span.entry) := by
  have hNamed : (t.allocated build slot e .reserved kind).get? _ = some _ := get?_allocated hGet
  have hEnds := create_follows hLoad (allocate_ends sound hGet hRoom) hNamed
  rw [e.handle.slotIn_successor (lt_of_get? hGet)] at hEnds
  rw [created_eq_put]
  exact hEnds

end Supervisor.Table
