import KernelCore.Operation

/-!
# Locks

What interrupt handlers use as well is behind a lock, which is taken with interrupts off. There is
one processor, so while somebody waits for a lock nothing runs that could give it back: the wait for
a lock that is held has no end.
-/

namespace KernelCore

/-- A state with a lock. -/
class Lockable (State : Type) where
  /-- Whether the lock is held. -/
  locked : State → Bool
  /-- The same state with the lock held or free. -/
  withLock : Bool → State → State

variable {State Value : Type} [Lockable State]

def takeLock : Operation State Unit := do
  let held ← modifyGet fun state => (Lockable.locked state, Lockable.withLock true state)
  if held then
    (Except.error Fault.heldLock : Except Fault Unit)

def giveLockBack : Operation State Unit :=
  modify (Lockable.withLock false)

/-- Does an operation with the lock held, and gives the lock back afterwards. -/
@[specialize]
def underLock (action : Operation State Value) : Operation State Value := do
  takeLock
  let value ← action
  giveLockBack
  return value

end KernelCore
