/-!
# Errors

Every operation that can be refused names the cause by a value of one of these types. The
function `message` of each gives the wording for people, and `describe` the short form for
diagnostics, once for the whole kernel.
-/

namespace KernelCore

/-- Why a request about physical frames was refused. -/
inductive FrameError where
  | alreadyFree
  /-- The frame lies past the end of tracked memory. -/
  | outOfRange
  /-- Memory does not extend past the reserved area. -/
  | insufficientMemory
  deriving DecidableEq, Repr

/-- Why a request to the heap was refused. -/
inductive HeapError where
  | outOfMemory
  | unknownAddress
  /-- The block at the address was free already. -/
  | doubleFree
  /-- The region has no room for a header and a payload. -/
  | regionTooSmall
  deriving DecidableEq, Repr

/-- Why a request about address spaces was refused. -/
inductive MapError where
  /-- No frame is left for a directory or a table. -/
  | frameAllocationFailed
  | noActiveDirectory
  | notMapped
  deriving DecidableEq, Repr

/-- Why a process was not created. -/
inductive ProcessError where
  | tableFull
  deriving DecidableEq, Repr

/-- Why an operation of the kernel failed: the part that refused, and its reason. -/
inductive KernelError where
  | frame (cause : FrameError)
  | heap (cause : HeapError)
  | map (cause : MapError)
  | process (cause : ProcessError)
  deriving DecidableEq, Repr

/-- Why a system call was refused. -/
inductive SyscallError where
  | unknown (number : UInt64)
  | badStream (stream : UInt64)
  /-- Bytes are to be read through a null address. -/
  | badBuffer
  deriving DecidableEq, Repr

namespace FrameError

def describe : FrameError → String
  | alreadyFree => "AlreadyFree"
  | outOfRange => "OutOfRange"
  | insufficientMemory => "InsufficientMemory"

def message : FrameError → String
  | alreadyFree => "Frame is already free"
  | outOfRange => "Frame is outside tracked memory"
  | insufficientMemory => "Not enough physical memory above the reserved area"

end FrameError

namespace HeapError

def describe : HeapError → String
  | outOfMemory => "OutOfMemory"
  | unknownAddress => "UnknownAddress"
  | doubleFree => "DoubleFree"
  | regionTooSmall => "RegionTooSmall"

def message : HeapError → String
  | outOfMemory => "Kernel heap out of memory"
  | unknownAddress => "Address was not allocated from the heap"
  | doubleFree => "Heap block is already free"
  | regionTooSmall => "Heap region cannot hold a single block"

end HeapError

namespace MapError

def describe : MapError → String
  | frameAllocationFailed => "FrameAllocationFailed"
  | noActiveDirectory => "NoActiveDirectory"
  | notMapped => "NotMapped"

def message : MapError → String
  | frameAllocationFailed => "No frame available for page table"
  | noActiveDirectory => "No page directory installed"
  | notMapped => "Page is not mapped"

end MapError

namespace ProcessError

def describe : ProcessError → String
  | tableFull => "TableFull"

def message : ProcessError → String
  | tableFull => "Process table is full"

end ProcessError

namespace KernelError

/-- Every error, in the order of the parts that refuse. -/
def all : List KernelError :=
  [.frame .alreadyFree, .frame .outOfRange, .frame .insufficientMemory, .heap .outOfMemory,
    .heap .unknownAddress, .heap .doubleFree, .heap .regionTooSmall, .map .frameAllocationFailed,
    .map .noActiveDirectory, .map .notMapped, .process .tableFull]

/-- The cause in words, without the part of the kernel. -/
def reason : KernelError → String
  | frame cause => cause.message
  | heap cause => cause.message
  | map cause => cause.message
  | process cause => cause.message

/-- The part of the kernel and the cause as they appear in diagnostics. -/
def describe : KernelError → String
  | frame cause => "Frame(" ++ cause.describe ++ ")"
  | heap cause => "Heap(" ++ cause.describe ++ ")"
  | map cause => "Map(" ++ cause.describe ++ ")"
  | process cause => "Process(" ++ cause.describe ++ ")"

/-- The part of the kernel and the cause in words. -/
def message : KernelError → String
  | frame cause => "Frame allocator: " ++ cause.message
  | heap cause => "Kernel heap: " ++ cause.message
  | map cause => "Paging: " ++ cause.message
  | process cause => "Process table: " ++ cause.message

end KernelError

namespace SyscallError

def describe : SyscallError → String
  | unknown number => "Unknown(" ++ toString number ++ ")"
  | badStream stream => "BadStream(" ++ toString stream ++ ")"
  | badBuffer => "BadBuffer"

def message : SyscallError → String
  | unknown number => "Unknown syscall: " ++ toString number
  | badStream stream => "Unsupported stream: " ++ toString stream
  | badBuffer => "Invalid user buffer"

end SyscallError

end KernelCore
