import KernelCore.Kernel.Memory
import KernelCore.Kernel.Syscalls
import KernelCore.Lock

/-!
# The booted machine

The one kernel of the machine, behind a lock, and the entry points through which the boot code and
the interrupt handlers reach it.

Every entry masks interrupts before it takes the lock, and it gives the lock back before it carries
out the switch that the kernel planned. So no handler ever finds the lock taken, and no switch
leaves it behind.
-/

namespace KernelCore

/-- The kernel and its lock. -/
structure Boot where
  kernel : Kernel
  /-- Whether the lock is held. -/
  locked : Bool := false

namespace Boot

instance : Maskable Boot where
  interrupts boot := boot.kernel.cpu.interrupts
  withInterrupts enabled := fun ⟨kernel, locked⟩ =>
    ⟨Maskable.withInterrupts enabled kernel, locked⟩

instance : Lockable Boot where
  locked := Boot.locked
  withLock locked := fun ⟨kernel, _⟩ => ⟨kernel, locked⟩

variable {Value : Type}

/-- Does an operation on the kernel, whoever holds the lock. -/
@[inline]
def onKernel (action : Operation Kernel Value) : Operation Boot Value :=
  action.within (fun ⟨kernel, locked⟩ => (kernel, locked)) Boot.mk

/-- Does an operation on the kernel under the lock. -/
@[specialize]
def withKernel (action : Operation Kernel Value) : Operation Boot Value :=
  underLock do
    signal .acquireLock
    let value ← onKernel action
    signal .releaseLock
    return value

/-- Carries a planned switch out, if there is one. -/
def perform (plan : Option Switch) : Operation Boot Unit := do
  if let some switch := plan then
    onKernel (Kernel.perform switch)

def init (memory : BootMemory) (idleEntry : UInt32) : Fallible Boot KernelError Unit := do
  maskedFallible (withKernel (Kernel.init memory idleEntry {}).result)
  log .kernelInitialized

/-- Lets the kernel plan a switch under the lock, and carries it out without. -/
def switchBy (plan : Operation Kernel (Option Switch)) : Operation Boot Unit :=
  masked do perform (← withKernel plan)

def start : Operation Boot Unit :=
  switchBy Kernel.start

def timerTick : Operation Boot Unit :=
  switchBy Kernel.tick

def yieldNow : Operation Boot Unit :=
  switchBy Kernel.yield

def exitCurrent (code : Int32) : Operation Boot Unit :=
  switchBy (Kernel.exit code)

/-- Handles a system call, and answers with the value for the caller. -/
def syscallEntry (bytesAt : UInt64 → Nat → List UInt8) (raw : RawSyscall) :
    Operation Boot UInt64 :=
  masked do
    let answer ← withKernel (Kernel.dispatchSyscall bytesAt raw)
    perform answer.plan
    return answer.value

end Boot

end KernelCore
