import KernelCore.ProcessTable

/-!
# The scheduler

Decides which process has the processor. The choice falls on the ready process with the highest
priority, and among those on the one queued last. It is made when a process gives its turn up,
goes to sleep or ends, and when the timer says that its turn is over.

A decision only changes the books and yields a `Switch`, the plan of what the processor still has
to do: make another address space active, save the registers of the process that loses the
processor, and load those of the one that gets it.
-/

namespace KernelCore

/-- The settings of the scheduler. -/
structure SchedulerConfig where
  /-- Ticks of an uninterrupted turn. -/
  timeSliceTicks : UInt32 := Layout.defaultTimeSlice
  /-- Ticks in a second. -/
  timerFrequency : UInt32 := Layout.timerFrequency
  deriving DecidableEq, Repr

/-- The settings and the clock. -/
structure Scheduler where
  config : SchedulerConfig := {}
  /-- Ticks since the start. -/
  ticks : UInt64 := 0
  deriving DecidableEq, Repr

/-- A decision to give the processor to another process. -/
structure Switch where
  /-- The process whose registers are to be saved, and its slot. -/
  outgoing : Option (Pid × Slot)
  /-- The process whose registers are to be loaded, and its slot. -/
  incoming : Pid × Slot
  /-- The address space to make active, unless the present one stays. -/
  directory : Option Directory
  deriving DecidableEq, Repr

/-- The processes and the scheduler that decides among them. -/
structure Dispatcher where
  table : ProcessTable
  scheduler : Scheduler
  deriving DecidableEq

namespace Scheduler

def uptimeSeconds (scheduler : Scheduler) : UInt64 :=
  scheduler.ticks / (max scheduler.config.timerFrequency 1).toUInt64

/-- The least number of ticks that lasts for the given milliseconds. -/
def ticksOfMilliseconds (scheduler : Scheduler) (milliseconds : UInt32) : UInt64 :=
  UInt64.ofNat ((milliseconds.toNat * scheduler.config.timerFrequency.toNat + 999) / 1000)

end Scheduler

namespace ProcessTable

/-- The better of the best slot so far and another slot further down the queue. -/
def better (table : ProcessTable) (best : Option Slot) (slot : Slot) : Option Slot :=
  let candidate := table.process slot
  if candidate.state ≠ .ready then
    best
  else
    match best with
    | none => some slot
    | some previous =>
        if candidate.priority < (table.process previous).priority then best else some slot

/-- The slot of the process that is to run: of the ready ones with the highest priority, the one
queued last. -/
def select (table : ProcessTable) : Except Fault (Option Slot) :=
  return (← table.wholeQueue).foldl table.better none

end ProcessTable

namespace Switch

/-- What the processor has to do, given the registers that it will have loaded in the end. -/
def events (switch : Switch) (loaded : Context) : List Event :=
  (switch.directory.map Event.loadDirectory).toList ++
    [.switchContext switch.outgoing.isSome loaded]

/-- The registers and the process table after the switch. -/
def apply (switch : Switch) (registers : Context) (table : ProcessTable) :
    Context × ProcessTable :=
  let table :=
    match switch.outgoing with
    | some (_, slot) => table.update slot fun process => { process with context := registers }
    | none => table
  ((table.process switch.incoming.2).context, table)

end Switch

namespace Dispatcher

/-- Does an operation on the process table. -/
@[inline]
def onTable {Value : Type} (action : Operation ProcessTable Value) : Operation Dispatcher Value :=
  action.within (fun ⟨table, scheduler⟩ => (table, scheduler)) Dispatcher.mk

def updateProcess (slot : Slot) (change : ProcessRecord → ProcessRecord) :
    Operation Dispatcher Unit :=
  modify fun dispatcher => { dispatcher with table := dispatcher.table.update slot change }

/-- Gives the processor to the process in a slot, which has not got it, and plans the switch. -/
def dispatch (slot : Slot) : Operation Dispatcher Switch := do
  let before := (← get).table
  let outgoing := before.current.map fun previous => ((before.process previous).pid, previous)
  if let some (_, previous) := outgoing then
    updateProcess previous ProcessRecord.demote
  let timeSlice := (← get).scheduler.config.timeSliceTicks
  updateProcess slot fun process => { process with state := .running, timeSlice }
  modify fun dispatcher =>
    { dispatcher with table := { dispatcher.table with current := some slot } }
  let incoming := (← get).table.process slot
  log (.switching (outgoing.map Prod.fst) incoming.pid (← get).scheduler.ticks)
  return { outgoing, incoming := (incoming.pid, slot), directory := incoming.resources.directory }

/-- Chooses the process to run, and plans a switch unless it runs already. -/
def schedule : Operation Dispatcher (Option Switch) := do
  match ← ((← get).table.select : Except Fault _) with
  | none =>
      log .nothingReady
      return none
  | some slot =>
      if (← get).table.current = some slot then
        updateProcess slot fun process => { process with state := .running }
        return none
      else
        return some (← dispatch slot)

/-- Charges the process in a slot with a tick, and says whether that was the last of its turn. -/
def charge (slot : Slot) : Operation Dispatcher Bool := do
  let process := (← get).table.process slot
  let totalTicks ← Checked.add64 process.totalTicks 1
  if 1 < process.timeSlice then
    updateProcess slot fun process =>
      { process with totalTicks, timeSlice := process.timeSlice - 1 }
    return false
  else
    let timeSlice := (← get).scheduler.config.timeSliceTicks
    updateProcess slot fun process => { process with totalTicks, timeSlice }
    return true

/-- Counts a tick of the timer: wakes sleepers, and chooses anew when a turn is over. -/
def tick : Operation Dispatcher (Option Switch) := do
  let ticks ← Checked.add64 (← get).scheduler.ticks 1
  modify fun ⟨table, scheduler⟩ => ⟨table, { scheduler with ticks }⟩
  onTable (ProcessTable.wakeSleepers ticks)
  match (← get).table.current with
  | none => return none
  | some slot =>
      if ← charge slot then
        updateProcess slot ProcessRecord.demote
        schedule
      else
        return none

def yield : Operation Dispatcher (Option Switch) := do
  if let some slot := (← get).table.current then
    updateProcess slot ProcessRecord.demote
  schedule

/-- Blocks the process that has the processor for at least so many milliseconds. -/
def sleep (milliseconds : UInt32) : Operation Dispatcher (Option Switch) := do
  let duration := (← get).scheduler.ticksOfMilliseconds milliseconds
  if duration = 0 then
    yield
  else
    let wakeAt ← Checked.add64 (← get).scheduler.ticks duration
    match (← get).table.current with
    | none => return none
    | some slot =>
        updateProcess slot fun process =>
          { process with state := .blocked, wakeAt := some wakeAt }
        log (.processSleeping ((← get).table.process slot).pid wakeAt)
        schedule

end Dispatcher

end KernelCore
