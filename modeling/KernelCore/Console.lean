import KernelCore.Interrupts
import KernelCore.Lock
import KernelCore.Text

/-!
# The masked console

A console that interrupt handlers print to as well. Its lock is only ever held with interrupts
off: whoever prints masks interrupts first, takes the lock, writes, and gives the lock back before
interrupts come on again.
-/

namespace KernelCore

/-- A console behind a lock, and the processor that prints to it. -/
structure Console where
  cpu : Cpu
  sink : Sink
  /-- Whether someone holds the lock. -/
  locked : Bool := false
  /-- Whether anything was ever written with interrupts on. -/
  writtenUnmasked : Bool := false
  deriving DecidableEq, Repr

namespace Console

instance : Maskable Console where
  interrupts console := console.cpu.interrupts
  withInterrupts enabled console :=
    { console with cpu := { console.cpu with interrupts := enabled } }

instance : Lockable Console where
  locked := Console.locked
  withLock locked console := { console with locked }

/-- Writes a text, and says whether all of it was accepted. -/
def write (text : String) : Operation Console Bool :=
  modifyGet fun console =>
    let (complete, sink) := console.sink.write text
    (complete,
      { console with
        sink := sink
        writtenUnmasked :=
          console.writtenUnmasked || (!text.isEmpty && console.cpu.interrupts) })

/-- Prints a text under the lock with interrupts off, and says whether all of it was accepted. -/
def printMasked (text : String) : Operation Console Bool :=
  masked (underLock (write text))

end Console

end KernelCore
