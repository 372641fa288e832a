import KernelCore.Address

/-!
# The processor

What the kernel asks of the processor is an `Event`, and what it needs to know about it is in
`Cpu`: whether interrupts are on, and the registers that a switch of processes saves and loads.

The events of an operation, in order, are all there is to observe about its dealings with the
processor. `Condition` replays them, to tell for each event whether interrupts were on and whether
the lock of the kernel was held when it came.
-/

namespace KernelCore

/-- The registers that belong to a process. -/
structure Context where
  esp : UInt32 := 0
  ebp : UInt32 := 0
  eip : UInt32 := 0
  ebx : UInt32 := 0
  esi : UInt32 := 0
  edi : UInt32 := 0
  eflags : UInt32 := 0
  deriving DecidableEq, Repr

namespace Context

def zero : Context := {}

end Context

/-- Something the processor is told to do. -/
inductive Event where
  | disableInterrupts
  | enableInterrupts
  | halt
  | loadDirectory (directory : Directory)
  | enablePaging
  | invalidatePage (address : VirtAddr)
  /-- Put the return address of a new process onto its stack. -/
  | prepareStack (top : UInt32)
  /-- Continue with the given registers, after saving the present ones if `saved`. -/
  | switchContext (saved : Bool) (incoming : Context)
  | acquireLock
  | releaseLock
  deriving DecidableEq, Repr

/-- The part of the processor's state that the kernel depends on. -/
structure Cpu where
  interrupts : Bool := true
  registers : Context := .zero
  deriving DecidableEq, Repr

/-- The circumstances in which an event takes place. -/
structure Condition where
  interrupts : Bool
  locked : Bool
  deriving DecidableEq, Repr

namespace Condition

def after (condition : Condition) : Event → Condition
  | .disableInterrupts => { condition with interrupts := false }
  | .enableInterrupts => { condition with interrupts := true }
  | .acquireLock => { condition with locked := true }
  | .releaseLock => { condition with locked := false }
  | _ => condition

def replay (condition : Condition) : List Event → List (Event × Condition)
  | [] => []
  | event :: rest => (event, condition) :: replay (condition.after event) rest

end Condition

end KernelCore
