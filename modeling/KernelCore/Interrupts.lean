import KernelCore.Operation

/-!
# Masking interrupts

A `Guard` remembers whether interrupts were on when it was made and turns them off; when it is
dropped it turns them back on if it had found them on. `masked` does an operation under a guard, so
that nothing can interrupt it and the processor's flag is afterwards what it was before, whether
the operation was refused or not.

The state may be any that knows the processor's interrupt flag.
-/

namespace KernelCore

/-- A state that knows whether the processor takes interrupts. -/
class Maskable (State : Type) where
  /-- Whether interrupts are on. -/
  interrupts : State → Bool
  /-- The same state with interrupts on or off. -/
  withInterrupts : Bool → State → State

instance : Maskable Cpu where
  interrupts := Cpu.interrupts
  withInterrupts enabled cpu := { cpu with interrupts := enabled }

/-- Interrupts are off until this is dropped. -/
structure Guard where
  /-- Whether interrupts were on when the guard was made. -/
  wereEnabled : Bool
  deriving DecidableEq, Repr

variable {State Value : Type} [Maskable State]

def disableInterrupts : Operation State Unit := do
  signal .disableInterrupts
  modify (Maskable.withInterrupts false)

def enableInterrupts : Operation State Unit := do
  signal .enableInterrupts
  modify (Maskable.withInterrupts true)

namespace Guard

/-- Makes a guard: interrupts that are on are turned off. -/
def acquire : Operation State Guard := do
  let wereEnabled ← modifyGet fun state => (Maskable.interrupts state, state)
  if wereEnabled then
    disableInterrupts
  return ⟨wereEnabled⟩

/-- Drops a guard: interrupts that it found on are turned on again. -/
def drop (guard : Guard) : Operation State Unit := do
  if guard.wereEnabled then
    enableInterrupts

end Guard

/-- Does an operation with interrupts off, and restores the flag afterwards. -/
@[specialize]
def masked (action : Operation State Value) : Operation State Value := do
  let guard ← Guard.acquire
  let value ← action
  guard.drop
  return value

/-- Does an operation that may be refused with interrupts off, and restores the flag afterwards. -/
@[inline]
def maskedFallible {Cause : Type} (action : Fallible State Cause Value) :
    Fallible State Cause Value :=
  masked action.result

/-- A processor and the live guards that were made on it, the oldest first. -/
structure GuardStack where
  cpu : Cpu
  guards : List Guard := []
  deriving DecidableEq, Repr

namespace GuardStack

instance : Maskable GuardStack where
  interrupts stack := stack.cpu.interrupts
  withInterrupts enabled stack := { stack with cpu := { stack.cpu with interrupts := enabled } }

def push : Operation GuardStack Unit := do
  let guard ← Guard.acquire
  modify fun stack => { stack with guards := stack.guards ++ [guard] }

/-- Drops the guard at an index, and says whether there was one. -/
def drop (index : Nat) : Operation GuardStack Bool := do
  match (← get).guards[index]? with
  | none => return false
  | some guard =>
      modify fun stack => { stack with guards := stack.guards.eraseIdx index }
      guard.drop
      return true

end GuardStack

end KernelCore
