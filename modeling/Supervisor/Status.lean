/-! The states that an environment passes through, and the steps between them that are allowed. -/

namespace Supervisor

inductive Status where
  /-- The slot is unused. -/
  | free
  /-- Destroyed, and to be released as soon as nothing runs on it. -/
  | dying
  | runnable
  | running
  /-- Alive, but waiting for something. -/
  | blocked
deriving DecidableEq

namespace Status

def name : Status → String
  | free => "FREE"
  | dying => "DYING"
  | runnable => "RUNNABLE"
  | running => "RUNNING"
  | blocked => "NOT_RUNNABLE"

instance : ToString Status := ⟨name⟩

/-- Whether one step leads from the first state to the second. -/
def allows : Status → Status → Bool
  | free, runnable => true
  | runnable, running | runnable, blocked => true
  | running, runnable | running, blocked => true
  | blocked, runnable => true
  | runnable, dying | running, dying | blocked, dying => true
  | dying, free | runnable, free | running, free | blocked, free => true
  | _, _ => false

theorem allows_from_dying {target : Status} : dying.allows target ↔ target = free := by
  cases target <;> simp [allows]

theorem allows_from_free {target : Status} : free.allows target ↔ target = runnable := by
  cases target <;> simp [allows]

end Status

end Supervisor
