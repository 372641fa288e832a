import KernelCore.Address
import KernelCore.Error
import KernelCore.Pid

/-!
# Notices

Everything the kernel may log is a `Notice`: one constructor for each kind of occurrence, with the
values it concerns. Its severity and its wording are functions of the notice, so an operation only
says what happened.
-/

namespace KernelCore

/-- How severe an occurrence is. -/
inductive Level where
  | error
  | warn
  | info
  | debug
  | trace
  deriving DecidableEq, Repr

namespace Level

def all : List Level :=
  [error, warn, info, debug, trace]

/-- The place of a level in the order from most to least severe. -/
def rank : Level → Nat
  | error => 1
  | warn => 2
  | info => 3
  | debug => 4
  | trace => 5

/-- The name of the level as log lines show it. -/
def name : Level → String
  | error => "ERROR"
  | warn => "WARN"
  | info => "INFO"
  | debug => "DEBUG"
  | trace => "TRACE"

def ofName? (name : String) : Option Level :=
  all.find? (·.name = name)

end Level

/-- An occurrence worth logging. -/
inductive Notice where
  /-- Physical memory beyond the tracked maximum goes unused. -/
  | memoryIgnored (kib : Nat)
  | bitmapReady (total free entries : Nat)
  | heapReady (first past : UInt32)
  /-- A block was not split because every slot of the arena is taken. -/
  | arenaFull
  /-- No free block is large enough for a request. -/
  | heapExhausted (size : UInt32)
  | kernelDirectoryBuilt (directory : Directory) (past : UInt32)
  | directorySwitched (directory : Directory)
  /-- A directory stopped sharing one of the kernel's page tables. -/
  | tableCopied (directory : Directory) (index : Nat)
  | processCreated (name : String) (pid : Pid)
  | processExited (name : String) (pid : Pid) (code : Int32)
  | processWoken (pid : Pid) (tick : UInt64)
  | processSleeping (pid : Pid) (wakeAt : UInt64)
  | nothingReady
  | switching (outgoing : Option Pid) (incoming : Pid) (tick : UInt64)
  | memoryReported (lowerKb upperKb : UInt32)
  | pagingEnabled
  /-- A process was not created because the table is full. -/
  | processTableFull (name : String)
  /-- The frames of an address space could not all be released. -/
  | addressSpaceLeaked (directory : Directory) (cause : FrameError)
  /-- The heap of a process could not be released. -/
  | processHeapLeaked (address : UInt32) (cause : HeapError)
  | idleExitIgnored
  | syscallRejected (cause : SyscallError)
  | kernelInitialized
  | unrecoverable (reason : String)
  deriving DecidableEq, Repr

namespace Notice

def level : Notice → Level
  | memoryIgnored .. | heapExhausted .. | processTableFull .. | addressSpaceLeaked ..
  | processHeapLeaked .. | idleExitIgnored | syscallRejected .. => .warn
  | bitmapReady .. | heapReady .. | kernelDirectoryBuilt .. | processCreated ..
  | processExited .. | memoryReported .. | pagingEnabled | kernelInitialized => .info
  | arenaFull | directorySwitched .. | tableCopied .. | processWoken .. | processSleeping ..
  | nothingReady | switching .. => .debug
  | unrecoverable .. => .error

def text : Notice → String
  | memoryIgnored kib =>
      "Ignoring " ++ toString kib ++ " KiB of physical memory above the bitmap limit"
  | bitmapReady total free entries =>
      "Frame bitmap: " ++ toString total ++ " frames, " ++ toString free ++ " free, " ++
        toString entries ++ " entries"
  | heapReady first past =>
      "Kernel heap at " ++ Text.hex first.toNat ++ ".." ++ Text.hex past.toNat ++ " (" ++
        toString ((past - first) / 1024) ++ " KiB)"
  | arenaFull => "Heap arena full, handing out whole block"
  | heapExhausted size => "Kernel heap cannot satisfy " ++ toString size ++ " bytes"
  | kernelDirectoryBuilt directory past =>
      "Kernel directory at " ++ directory.frame.describe ++ " maps " ++
        toString (past / 1024) ++ " KiB"
  | directorySwitched directory => "Switched to directory " ++ directory.frame.describe
  | tableCopied directory index =>
      "Directory " ++ directory.frame.describe ++ " took a private copy of kernel table " ++
        toString index
  | processCreated name pid => "Created process '" ++ name ++ "' (PID: " ++ pid.text ++ ")"
  | processExited name pid code =>
      "Process '" ++ name ++ "' (PID: " ++ pid.text ++ ") exiting with code " ++
        toString code.toInt
  | processWoken pid tick => "Woke process " ++ pid.text ++ " at tick " ++ toString tick
  | processSleeping pid wakeAt =>
      "Process " ++ pid.text ++ " sleeping until tick " ++ toString wakeAt
  | nothingReady => "No ready process to schedule"
  | switching outgoing incoming tick =>
      "Switching " ++ Pid.describeOption outgoing ++ " -> " ++ incoming.text ++ " at tick " ++
        toString tick
  | memoryReported lowerKb upperKb =>
      "Memory: " ++ toString lowerKb ++ " KB lower, " ++ toString upperKb ++ " KB upper"
  | pagingEnabled => "Paging enabled"
  | processTableFull name => "Cannot create '" ++ name ++ "': process table full"
  | addressSpaceLeaked directory cause =>
      "Leaking address space " ++ directory.describe ++ ": " ++ cause.message
  | processHeapLeaked address cause =>
      "Leaking process heap at " ++ Text.hex address.toNat ++ ": " ++ cause.message
  | idleExitIgnored => "Ignoring exit from the idle process"
  | syscallRejected cause => "Syscall rejected: " ++ cause.message
  | kernelInitialized => "Kernel initialized"
  | unrecoverable reason => "Unrecoverable: " ++ reason

end Notice

end KernelCore
