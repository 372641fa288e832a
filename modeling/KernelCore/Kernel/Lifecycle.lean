import KernelCore.Kernel.Basic

/-!
# Bring-up and processes

How the kernel comes up, and how processes begin, take turns and end.

Bring-up sets up the bitmap and the heap, maps all tracked memory to itself, turns paging on, and
creates the idle process, which uses the kernel's address space and has no heap. Any other process
gets an address space and a block of the heap, and gives both back when it ends. The idle process
never ends.

An operation that changes who has the processor only plans the switch and notes which address
space it will make active. `Kernel.perform` carries a plan out.
-/

namespace KernelCore.Kernel

/-- Puts the return address of a new process onto its stack. -/
def seedStack (pid : Pid) : Operation Kernel Unit := do
  if let some process := (← get).process pid then
    signal (.prepareStack process.context.esp)

/-- Notes the address space that a planned switch is about to make active. -/
def track (plan : Option Switch) : Operation Kernel (Option Switch) := do
  if let some directory := plan.bind Switch.directory then
    onSpaces (AddressSpaces.recordLoaded directory)
  return plan

def perform (switch : Switch) : Operation Kernel Unit := do
  let registers ← modifyGet fun ⟨cpu, spaces, heap, ⟨table, scheduler⟩, idle⟩ =>
    let (registers, table) := switch.apply cpu.registers table
    (registers, ⟨{ cpu with registers }, spaces, heap, ⟨table, scheduler⟩, idle⟩)
  HasEffects.perform ((switch.events registers).map Effect.cpu)

/-- Forgets all address spaces, but not what is in memory. -/
def forgetSpaces : Operation Kernel Unit :=
  onSpaces (modify fun ⟨frames, memory, _, _⟩ => ⟨frames, memory, none, none⟩)

/-- Starts over without processes and with the clock at zero. -/
def resetProcesses (config : SchedulerConfig) : Operation Kernel Unit :=
  onDispatcher (set { table := .empty config.timeSliceTicks, scheduler := { config } : Dispatcher })

/-- Brings the kernel up on a machine with the given memory. -/
def init (memory : BootMemory) (idleEntry : UInt32) (config : SchedulerConfig) :
    Fallible Kernel KernelError Unit :=
  maskedFallible do
    log (.memoryReported memory.lowerKb memory.upperKb)
    Fallible.mapCause .frame
      (onFrames (FrameBitmap.reset memory.totalBytes Layout.reservedEnd))
    Fallible.mapCause .heap (onHeap (Heap.reset Layout.kernelHeapStart Layout.kernelHeapEnd))
    forgetSpaces
    let past := UInt32.ofNat ((← get).spaces.frames.totalFrames * Layout.frameSize)
    let directory ←
      Fallible.mapCause .map (onSpaces (AddressSpaces.initKernelDirectory past))
    Fallible.always (onSpaces (AddressSpaces.switchTo directory))
    signal .enablePaging
    log .pagingEnabled
    resetProcesses config
    let pid ← Fallible.mapCause .process
      (onDispatcher (Dispatcher.onTable
        (ProcessTable.create "idle" idleEntry Layout.idlePriority { directory })))
    modify fun ⟨cpu, spaces, heap, dispatcher, _⟩ => ⟨cpu, spaces, heap, dispatcher, pid⟩
    seedStack pid

/-- Gives the heap of a process back; if that is refused, the heap is lost. -/
def releaseHeap (address : UInt32) : Operation Kernel Unit := do
  match ← onHeap (Heap.free address).result with
  | .ok () => return ()
  | .error cause => log (.processHeapLeaked address cause)

/-- Gives the address space of a process back, unless it is the kernel's; if that is refused, some
of its frames are lost. -/
def releaseDirectory (directory : Directory) : Operation Kernel Unit := do
  if (← get).spaces.kernel ≠ some directory then
    match ← onSpaces (AddressSpaces.destroyDirectory directory).result with
    | .ok () => return ()
    | .error cause => log (.addressSpaceLeaked directory cause)

def release (resources : ProcessResources) : Operation Kernel Unit := do
  if let some directory := resources.directory then
    releaseDirectory directory
  if resources.heapStart < resources.heapEnd then
    releaseHeap resources.heapStart

/-- Creates a process with an address space and a heap of its own. -/
def spawn (name : String) (entry priority : UInt32) : Fallible Kernel KernelError Pid :=
  maskedFallible do
    if (← get).table.isFull then
      log (.processTableFull name)
      throw (.process .tableFull)
    let heapStart ← Fallible.mapCause .heap (onHeap (Heap.allocate Layout.processHeapSize))
    let directory ←
      try
        Fallible.mapCause .map (onSpaces AddressSpaces.createProcessDirectory)
      catch cause =>
        releaseHeap heapStart
        throw cause
    let heapEnd ← Checked.add32 heapStart Layout.processHeapSize
    let resources := { directory, heapStart, heapEnd : ProcessResources }
    let pid ←
      try
        Fallible.mapCause .process
          (onDispatcher (Dispatcher.onTable (ProcessTable.create name entry priority resources)))
      catch cause =>
        release resources
        throw cause
    seedStack pid
    return pid

def start : Operation Kernel (Option Switch) :=
  masked do track (← onDispatcher Dispatcher.schedule)

def tick : Operation Kernel (Option Switch) :=
  masked do track (← onDispatcher Dispatcher.tick)

def yield : Operation Kernel (Option Switch) :=
  masked do track (← onDispatcher Dispatcher.yield)

/-- Blocks the process that has the processor for at least so many milliseconds. -/
def sleep (milliseconds : UInt32) : Operation Kernel (Option Switch) :=
  masked do track (← onDispatcher (Dispatcher.sleep milliseconds))

/-- Ends the process that has the processor, unless it is the idle process, and gives back what it
was given. -/
def exit (code : Int32) : Operation Kernel (Option Switch) :=
  masked do
    if (← get).currentPid = some (← get).idle then
      log .idleExitIgnored
      return none
    match ← onDispatcher (Dispatcher.onTable (ProcessTable.exit code)) with
    | none => return none
    | some process =>
        release process.resources
        track (← onDispatcher Dispatcher.schedule)

end KernelCore.Kernel
