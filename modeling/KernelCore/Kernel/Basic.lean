import KernelCore.Heap
import KernelCore.Interrupts
import KernelCore.MemoryReport
import KernelCore.Paging.AddressSpaces
import KernelCore.ProcessList
import KernelCore.Scheduler

/-!
# The kernel

`Kernel` is everything the kernel knows together with the machine it runs on: the processor,
physical memory with its address spaces and frame bitmap, the heap, and the processes with their
scheduler. Here are the state, the ways to work on a part of it, and what can be read from it
without changing it.
-/

namespace KernelCore

/-- The state of the kernel and of the machine. -/
structure Kernel where
  cpu : Cpu
  spaces : AddressSpaces
  heap : Heap
  dispatcher : Dispatcher
  /-- The process that runs when no other can; zero before there is one. -/
  idle : Pid

namespace Kernel

/-- A kernel that owns no memory and no processes, on memory full of zeros. -/
def new (interrupts : Bool) : Kernel :=
  { cpu := { interrupts }
    spaces := .ofFrames .empty
    heap := .empty
    dispatcher := { table := .empty Layout.defaultTimeSlice, scheduler := {} }
    idle := ⟨0⟩ }

/-- A kernel that owns no memory and no processes, on a machine that has been in use: memory and
the registers hold whatever is left there. -/
def newOn (cpu : Cpu) (memory : Memory) : Kernel :=
  { new cpu.interrupts with
    cpu
    spaces := { AddressSpaces.ofFrames .empty with memory } }

instance : Maskable Kernel where
  interrupts kernel := kernel.cpu.interrupts
  withInterrupts enabled := fun ⟨cpu, spaces, heap, dispatcher, idle⟩ =>
    ⟨{ cpu with interrupts := enabled }, spaces, heap, dispatcher, idle⟩

variable {Value : Type}

/-- Does an operation on the address spaces. -/
@[inline]
def onSpaces (action : Operation AddressSpaces Value) : Operation Kernel Value :=
  action.within
    (fun ⟨cpu, spaces, heap, dispatcher, idle⟩ => (spaces, cpu, heap, dispatcher, idle))
    (fun spaces (cpu, heap, dispatcher, idle) => ⟨cpu, spaces, heap, dispatcher, idle⟩)

/-- Does an operation on the frame bitmap. -/
@[inline]
def onFrames (action : Operation FrameBitmap Value) : Operation Kernel Value :=
  onSpaces (AddressSpaces.onFrames action)

/-- Does an operation on the heap. -/
@[inline]
def onHeap (action : Operation Heap Value) : Operation Kernel Value :=
  action.within
    (fun ⟨cpu, spaces, heap, dispatcher, idle⟩ => (heap, cpu, spaces, dispatcher, idle))
    (fun heap (cpu, spaces, dispatcher, idle) => ⟨cpu, spaces, heap, dispatcher, idle⟩)

/-- Does an operation on the processes and the scheduler. -/
@[inline]
def onDispatcher (action : Operation Dispatcher Value) : Operation Kernel Value :=
  action.within
    (fun ⟨cpu, spaces, heap, dispatcher, idle⟩ => (dispatcher, cpu, spaces, heap, idle))
    (fun dispatcher (cpu, spaces, heap, idle) => ⟨cpu, spaces, heap, dispatcher, idle⟩)

def table (kernel : Kernel) : ProcessTable :=
  kernel.dispatcher.table

/-- The id of the process that has the processor. -/
def currentPid (kernel : Kernel) : Option Pid :=
  kernel.table.currentPid

def currentDirectory (kernel : Kernel) : Option Directory :=
  kernel.spaces.current

def process (kernel : Kernel) (pid : Pid) : Option ProcessRecord :=
  kernel.table.find? pid

def infos (kernel : Kernel) : List ProcessInfo :=
  kernel.table.infos

def processList (kernel : Kernel) : String :=
  ProcessList.render kernel.infos

def memoryStats (kernel : Kernel) : Except Fault MemoryStats := do
  let frames := kernel.spaces.frames
  let heapFree ← kernel.heap.freeBytes
  MemoryStats.ofCounts frames.totalFrames frames.freeFrames kernel.heap.usedBytes.toNat
    heapFree.toNat

/-- The memory report as a line of its own. -/
def memoryInfo (kernel : Kernel) : Except Fault String := do
  let stats ← kernel.memoryStats
  return (← stats.render) ++ "\n"

/-- Where a virtual address leads in the active address space, and with which flags. -/
def translate (kernel : Kernel) (address : VirtAddr) : Option (PhysAddr × PageFlags) :=
  kernel.spaces.translate address

end Kernel

end KernelCore
