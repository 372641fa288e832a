import KernelCore.Operation
import KernelCore.Process

/-!
# The process table

Processes live in a fixed number of slots, and a slot is used again once its process has ended.
The live processes are linked by slot in the order of their creation; `ProcessTable.queue` reads
that list. It holds every live process whatever its state, so whoever looks for a process to run
must look at the states.

Process ids count up from one and start over after the last 32-bit word, leaving out zero and the
ids of live processes.
-/

namespace KernelCore

/-- All processes, the queue through the live ones, and the one that has the processor. -/
structure ProcessTable where
  processes : Vector ProcessRecord Layout.maxProcesses
  /-- The slot of the first process of the queue. -/
  queueHead : Option Slot
  /-- The slot of the last process of the queue. -/
  queueTail : Option Slot
  /-- The slot of the process that has the processor. -/
  current : Option Slot
  /-- The id from which the search for the next unused one starts. -/
  nextPid : UInt32
  /-- Ticks of a new process's first turn. -/
  timeSlice : UInt32
  deriving DecidableEq

namespace ProcessTable

def empty (timeSlice : UInt32) : ProcessTable :=
  { processes := Vector.replicate Layout.maxProcesses .vacant
    queueHead := none
    queueTail := none
    current := none
    nextPid := 1
    timeSlice }

def process (table : ProcessTable) (slot : Slot) : ProcessRecord :=
  table.processes[slot]

def update (table : ProcessTable) (slot : Slot) (change : ProcessRecord → ProcessRecord) :
    ProcessTable :=
  { table with processes := table.processes.set slot (change (table.process slot)) }

/-- An update changes the process in its slot and no other. -/
theorem process_update (table : ProcessTable) (slot other : Slot)
    (change : ProcessRecord → ProcessRecord) :
    (table.update slot change).process other =
      if slot = other then change (table.process slot) else table.process other := by
  simp [update, process, Vector.getElem_set, Fin.ext_iff]

def isFull (table : ProcessTable) : Bool :=
  table.processes.all ProcessRecord.isLive

/-- The live processes in the order of their slots. -/
def live (table : ProcessTable) : List ProcessRecord :=
  table.processes.toList.filter ProcessRecord.isLive

def size (table : ProcessTable) : Nat :=
  table.live.length

def isEmpty (table : ProcessTable) : Bool :=
  table.size = 0

def infos (table : ProcessTable) : List ProcessInfo :=
  table.live.map ProcessRecord.info

/-- The slot of the live process with an id. -/
def slotOf (table : ProcessTable) (pid : Pid) : Option Slot :=
  table.processes.findFinIdx? fun process => process.isLive && process.pid == pid

def find? (table : ProcessTable) (pid : Pid) : Option ProcessRecord :=
  (table.slotOf pid).map table.process

def currentProcess (table : ProcessTable) : Option ProcessRecord :=
  table.current.map table.process

/-- The id of the process that has the processor. -/
def currentPid (table : ProcessTable) : Option Pid :=
  table.currentProcess.map ProcessRecord.pid

/-- The slots on the queue from `cursor` on, as far as `fuel` of them. -/
def follow (table : ProcessTable) : (fuel : Nat) → (cursor : Option Slot) → List Slot
  | 0, _ => []
  | _ + 1, none => []
  | fuel + 1, some slot => slot :: table.follow fuel (table.process slot).next

/-- The slots on the queue, first to last. A queue without cycles visits no slot twice; one that
goes on for more steps than there are slots is cut off there. -/
def queue (table : ProcessTable) : List Slot :=
  table.follow (Layout.maxProcesses + 1) table.queueHead

/-- Whether the links of the queue form a cycle. -/
def isCyclic (table : ProcessTable) : Bool :=
  Layout.maxProcesses < table.queue.length

/-- The first slot on the queue that passes a test. The search has no end if none does and the
queue is cyclic. -/
def searchQueue (table : ProcessTable) (test : Slot → Bool) : Except Fault (Option Slot) :=
  match table.queue.find? test with
  | some slot => .ok (some slot)
  | none => if table.isCyclic then .error .endlessSearch else .ok none

/-- All slots on the queue, first to last, if it ends. -/
def wholeQueue (table : ProcessTable) : Except Fault (List Slot) :=
  if table.isCyclic then .error .endlessSearch else .ok table.queue

/-- Puts a slot at the end of the queue. -/
def enqueue (slot : Slot) (table : ProcessTable) : ProcessTable :=
  let table := table.update slot fun process => { process with next := none }
  let table :=
    match table.queueTail with
    | some tail => table.update tail fun process => { process with next := some slot }
    | none => { table with queueHead := some slot }
  { table with queueTail := some slot }

def dequeue (slot : Slot) (table : ProcessTable) : Except Fault ProcessTable := do
  let next := (table.process slot).next
  let table := table.update slot fun process => { process with next := none }
  match ← table.searchQueue fun before => (table.process before).next == some slot with
  | some before =>
      let table := table.update before fun process => { process with next }
      return if table.queueTail = some slot then { table with queueTail := some before } else table
  | none =>
      if table.queueHead = some slot then
        let table := { table with queueHead := next }
        return if table.queueTail = some slot then { table with queueTail := none } else table
      else
        return table

/-- The word after another in the cycle of process ids, which leaves out zero. -/
def successor (word : UInt32) : UInt32 :=
  max (word + 1) 1

/-- The first id from `candidate` on that no live process has, and the id after it, if it is among
the first `tries`. -/
def searchPid (table : ProcessTable) : (tries : Nat) → (candidate : UInt32) → Option (Pid × UInt32)
  | 0, _ => none
  | tries + 1, candidate =>
      if table.slotOf ⟨candidate⟩ = none then
        some (⟨candidate⟩, successor candidate)
      else
        table.searchPid tries (successor candidate)

/-- An unused id. Every try that fails meets another live process, so one more try than there are
slots is enough. -/
def allocatePid : Operation ProcessTable Pid := do
  match (← get).searchPid (Layout.maxProcesses + 1) (← get).nextPid with
  | some (pid, nextPid) =>
      modify fun table => { table with nextPid }
      return pid
  | none => (Except.error Fault.endlessSearch : Except Fault Pid)

/-- Creates a process, ready to run, in the first free slot and at the end of the queue. -/
def create (name : String) (entry priority : UInt32) (resources : ProcessResources) :
    Fallible ProcessTable ProcessError Pid := do
  let some slot := (← get).processes.findFinIdx? fun process => !process.isLive
    | throw .tableFull
  let pid ← allocatePid
  modify fun table =>
    (table.update slot fun _ =>
      ProcessRecord.fresh pid name entry priority table.timeSlice resources).enqueue slot
  log (.processCreated ((← get).process slot).name pid)
  return pid

/-- Ends the process that has the processor, and answers with what it was. -/
def exit (code : Int32) : Operation ProcessTable (Option ProcessRecord) := do
  match (← get).current with
  | none => return none
  | some slot =>
      modify fun table => { table with current := none }
      set (← (← get).dequeue slot)
      modify fun table =>
        table.update slot fun process => { process with state := .terminated, wakeAt := none }
      let process := (← get).process slot
      log (.processExited process.name process.pid code)
      return some process

def wakeSleepers (now : UInt64) : Operation ProcessTable Unit := do
  let due := (← get).processes.toList.filter fun process => process.isDue now
  modify fun table =>
    { table with
      processes := table.processes.map fun process =>
        if process.isDue now then process.wake else process }
  perform (due.map fun process => .log (.processWoken process.pid now))

end ProcessTable

end KernelCore
