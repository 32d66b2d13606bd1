import Supervisor.Table.Allocation
import Supervisor.Table.Release

/-! Bulk workloads, which take a table through many allocations and stop at the first refusal. -/

namespace Supervisor.Table

variable {c : Capacity}

/-- How far a workload came. -/
structure Progress where
  rounds : Nat
  /-- The first and the last handle issued. -/
  first : Option Handle
  last : Option Handle
  error : Option Error

namespace Progress

def start : Progress := ⟨0, none, none, none⟩

def issue (p : Progress) (h : Handle) : Progress :=
  { p with first := some (p.first.getD h), last := some h }

def complete (p : Progress) : Progress := { p with rounds := p.rounds + 1 }

end Progress

/-- Allocates so many environments. -/
def fill (build : Build) (parent : Handle) (kind : Kind) (p : Progress) : Nat → Op c Progress
  | 0 => pure p
  | rounds + 1 => do
    match ← Effect.catchRefusal (allocate build parent kind) with
    | .error error => pure { p with error := some error }
    | .ok h => fill build parent kind (p.issue h).complete rounds

/-- Allocates an environment and releases it again, so many times over. -/
def churn (build : Build) (parent : Handle) (kind : Kind) (p : Progress) : Nat → Op c Progress
  | 0 => pure p
  | rounds + 1 => do
    match ← Effect.catchRefusal (allocate build parent kind) with
    | .error error => pure { p with error := some error }
    | .ok h =>
      match ← Effect.catchRefusal (release h) with
      | .error error => pure { p.issue h with error := some error }
      | .ok () => churn build parent kind (p.issue h).complete rounds

end Supervisor.Table
