import KernelCore.Cpu
import KernelCore.Pid

/-!
# Processes

What the kernel knows about a process. A process is live unless its state is `terminated`. A new
process is ready, owns a stack in the area set aside for stacks, and starts at its entry with the
stack pointer just below the top, where the address it returns to is put.

Stacks are assigned by process id: ids that differ by a multiple of the number of stacks share one.
-/

namespace KernelCore

/-- A place in the process table. -/
abbrev Slot : Type := Fin Layout.maxProcesses

/-- What a process is doing. -/
inductive ProcessState where
  | ready
  | running
  /-- It waits for something else than its turn. -/
  | blocked
  | terminated
  deriving DecidableEq, Repr

namespace ProcessState

/-- The name of the state as listings show it. -/
def name : ProcessState → String
  | ready => "READY"
  | running => "RUNNING"
  | blocked => "BLOCKED"
  | terminated => "TERMINATED"

def ofName? (name : String) : Option ProcessState :=
  [ready, running, blocked, terminated].find? (·.name = name)

end ProcessState

/-- What a process is given when it is created, and what must be released when it ends. -/
structure ProcessResources where
  directory : Option Directory := none
  heapStart : UInt32 := 0
  heapEnd : UInt32 := 0
  deriving DecidableEq, Repr

/-- What the kernel keeps of a process, live or not. -/
structure ProcessRecord where
  pid : Pid
  name : String
  state : ProcessState
  /-- The registers to continue with. -/
  context : Context
  resources : ProcessResources
  stackBase : UInt32
  stackTop : UInt32
  priority : UInt32
  /-- Ticks until the end of the current turn. -/
  timeSlice : UInt32
  /-- Ticks during which the process had the processor. -/
  totalTicks : UInt64
  /-- The tick that ends the sleep of a sleeping process. -/
  wakeAt : Option UInt64
  /-- The slot of the process that follows in the queue. -/
  next : Option Slot
  deriving DecidableEq, Repr

/-- What listings show of a process. -/
structure ProcessInfo where
  pid : Pid
  name : String
  state : ProcessState
  priority : UInt32
  totalTicks : UInt64
  deriving DecidableEq, Repr

namespace ProcessRecord

/-- What a slot holds before its first process. -/
def vacant : ProcessRecord :=
  { pid := ⟨0⟩
    name := ""
    state := .terminated
    context := .zero
    resources := {}
    stackBase := 0
    stackTop := 0
    priority := 0
    timeSlice := 0
    totalTicks := 0
    wakeAt := none
    next := none }

def stackBaseOf (pid : Pid) : UInt32 :=
  Layout.processStacksStart + pid.word % Layout.stackSlots * Layout.stackSize

def stackTopOf (pid : Pid) : UInt32 :=
  stackBaseOf pid + Layout.stackSize

def initialContext (pid : Pid) (entry : UInt32) : Context :=
  let top := stackTopOf pid - 4
  { esp := top, ebp := top, eip := entry, eflags := Layout.initialFlags }

/-- A new process, whose name is cut to the bytes there are for it. -/
def fresh (pid : Pid) (name : String) (entry priority timeSlice : UInt32)
    (resources : ProcessResources) : ProcessRecord :=
  { pid
    name := Text.cut Layout.maxNameLength name
    state := .ready
    context := initialContext pid entry
    resources
    stackBase := stackBaseOf pid
    stackTop := stackTopOf pid
    priority
    timeSlice
    totalTicks := 0
    wakeAt := none
    next := none }

def isLive (process : ProcessRecord) : Bool :=
  process.state ≠ .terminated

/-- Whether the process sleeps and its time has come. -/
def isDue (process : ProcessRecord) (now : UInt64) : Bool :=
  process.state = .blocked && process.wakeAt.any (· ≤ now)

def wake (process : ProcessRecord) : ProcessRecord :=
  { process with state := .ready, wakeAt := none }

def demote (process : ProcessRecord) : ProcessRecord :=
  if process.state = .running then { process with state := .ready } else process

def info (process : ProcessRecord) : ProcessInfo :=
  { pid := process.pid
    name := process.name
    state := process.state
    priority := process.priority
    totalTicks := process.totalTicks }

end ProcessRecord

end KernelCore
