/-!
# Fixed sizes and places

The constants of the kernel: how physical memory below 8 MiB is divided, the sizes of frames,
tables and arenas, the defaults of the scheduler, and the numbers of the system calls.
-/

namespace KernelCore.Layout

/-- Bytes in a physical frame, and in a page. -/
def frameSize : Nat := 4096

/-- Frames that 32-bit addresses lead to. -/
abbrev addressableFrames : Nat := 0x100000

/-- Entries in a page directory, and in a page table. -/
abbrev pageEntries : Nat := 1024

/-- Frames that one word of the frame bitmap tracks. -/
def bitmapEntrySize : Nat := 32

/-- A bitmap word none of whose frames is free. -/
def fullBitmapEntry : UInt32 := 0xFFFFFFFF

/-- Physical memory above this many bytes is ignored. -/
def maxPhysicalMemory : Nat := 1024 * 1024 * 1024

def maxFrames : Nat := maxPhysicalMemory / frameSize

def maxBitmapEntries : Nat := maxFrames / bitmapEntrySize

def kernelImageStart : UInt32 := 0x00100000

def kernelImageEnd : UInt32 := 0x00200000

def kernelHeapStart : UInt32 := 0x00200000

def kernelHeapEnd : UInt32 := 0x00400000

def processStacksStart : UInt32 := 0x00400000

def processStacksEnd : UInt32 := 0x00800000

/-- Frames below this address are reserved from the start. -/
def reservedEnd : UInt32 := processStacksEnd

/-- Bytes of the heap region charged to every block beyond its payload. -/
def blockHeaderSize : UInt32 := 16

/-- A block is split only if more than this is left for the payload of the remainder. -/
def splitSlop : UInt32 := 16

/-- Heap requests are rounded up to a multiple of this. -/
def heapAlign : UInt32 := 4

/-- The most blocks that the heap's list can hold. -/
abbrev maxHeapBlocks : Nat := 512

/-- The most processes that can be live at once. -/
abbrev maxProcesses : Nat := 64

def maxNameLength : Nat := 31

def stackSize : UInt32 := 4096

/-- Stacks that fit into the area set aside for them. -/
def stackSlots : UInt32 := (processStacksEnd - processStacksStart) / stackSize

/-- Bytes of kernel heap that each process gets. -/
def processHeapSize : UInt32 := 4096

/-- Ticks of an uninterrupted turn, unless configured otherwise. -/
def defaultTimeSlice : UInt32 := 10

/-- The priority of the process that runs when no other can. -/
def idlePriority : UInt32 := 0

/-- The flags register of a new process: interrupts on, and the bit that is always one. -/
def initialFlags : UInt32 := 0x202

/-- Timer ticks in a second, unless configured otherwise. -/
def timerFrequency : UInt32 := 1000

/-- The system call that ends the calling process. -/
def exitNumber : UInt64 := 1

/-- The system call that writes bytes to a stream. -/
def writeNumber : UInt64 := 4

/-- The system call that asks for the caller's process id. -/
def getPidNumber : UInt64 := 20

/-- The system call that suspends the caller for a while. -/
def sleepNumber : UInt64 := 35

/-- The only stream that can be written to. -/
def standardOutput : UInt64 := 1

def syscallFailure : UInt64 := 0xFFFFFFFFFFFFFFFF

/-- The first of the I/O addresses of the first serial line. -/
def serialPort : UInt16 := 0x3F8

/-- All constants with the names under which they are listed. -/
def named : List (String × Nat) :=
  [("FRAME_SIZE", frameSize),
    ("PAGE_SIZE", frameSize),
    ("PAGE_ENTRIES", pageEntries),
    ("BITMAP_ENTRY_SIZE", bitmapEntrySize),
    ("FULL_BITMAP_ENTRY", fullBitmapEntry.toNat),
    ("MAX_PHYSICAL_MEMORY", maxPhysicalMemory),
    ("MAX_FRAMES", maxFrames),
    ("MAX_BITMAP_ENTRIES", maxBitmapEntries),
    ("KERNEL_IMAGE_START", kernelImageStart.toNat),
    ("KERNEL_IMAGE_END", kernelImageEnd.toNat),
    ("KERNEL_HEAP_START", kernelHeapStart.toNat),
    ("KERNEL_HEAP_END", kernelHeapEnd.toNat),
    ("PROCESS_STACKS_START", processStacksStart.toNat),
    ("PROCESS_STACKS_END", processStacksEnd.toNat),
    ("RESERVED_END", reservedEnd.toNat),
    ("HEAP_BLOCK_HEADER_SIZE", blockHeaderSize.toNat),
    ("HEAP_SPLIT_SLOP", splitSlop.toNat),
    ("HEAP_ALIGN", heapAlign.toNat),
    ("MAX_HEAP_BLOCKS", maxHeapBlocks),
    ("SERIAL_PORT", serialPort.toNat),
    ("MAX_PROCESSES", maxProcesses),
    ("MAX_NAME_LEN", maxNameLength),
    ("STACK_SIZE", stackSize.toNat),
    ("STACK_SLOTS", stackSlots.toNat),
    ("PROCESS_HEAP_SIZE", processHeapSize.toNat),
    ("DEFAULT_TIME_SLICE", defaultTimeSlice.toNat),
    ("IDLE_PRIORITY", idlePriority.toNat),
    ("INITIAL_EFLAGS", initialFlags.toNat),
    ("SYSCALL_EXIT", exitNumber.toNat),
    ("SYSCALL_WRITE", writeNumber.toNat),
    ("SYSCALL_GETPID", getPidNumber.toNat),
    ("SYSCALL_SLEEP", sleepNumber.toNat),
    ("STDOUT", standardOutput.toNat),
    ("SYSCALL_FAILURE", syscallFailure.toNat),
    ("TIMER_FREQUENCY", timerFrequency.toNat)]

end KernelCore.Layout
