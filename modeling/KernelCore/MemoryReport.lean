import KernelCore.Fault
import KernelCore.Layout

/-!
# The memory report

A summary of how much memory there is and how it is used, and its text for users.
-/

namespace KernelCore

/-- The memory sizes that the boot loader reports, in units of 1024 bytes. -/
structure BootMemory where
  lowerKb : UInt32
  upperKb : UInt32
  deriving DecidableEq, Repr

namespace BootMemory

/-- The memory that there is, in bytes. Words for sizes have 64 bits, and the number stays below
`2 ^ 43`, so neither the sum nor the product can exceed its word, and both are exact. -/
def totalBytes (memory : BootMemory) : Nat :=
  (memory.lowerKb.toNat + memory.upperKb.toNat) * 1024

end BootMemory

/-- How much memory there is, and how it is used. -/
structure MemoryStats where
  totalBytes : Nat
  usedBytes : Nat
  freeBytes : Nat
  totalPages : Nat
  freePages : Nat
  heapUsedBytes : Nat
  heapFreeBytes : Nat
  deriving DecidableEq, Repr

namespace MemoryStats

def usedPages (stats : MemoryStats) : Except Fault Nat :=
  Checked.sub stats.totalPages stats.freePages

/-- The figures of a bitmap with so many frames and a heap with so many bytes. -/
def ofCounts (totalPages freePages heapUsedBytes heapFreeBytes : Nat) :
    Except Fault MemoryStats := do
  let usedPages ← Checked.sub totalPages freePages
  return {
    totalBytes := totalPages * Layout.frameSize
    usedBytes := usedPages * Layout.frameSize
    freeBytes := freePages * Layout.frameSize
    totalPages
    freePages
    heapUsedBytes
    heapFreeBytes }

def render (stats : MemoryStats) : Except Fault String := do
  let usedPages ← stats.usedPages
  return "Memory Information:\n" ++
    "==================\n" ++
    "Total memory: " ++ toString (stats.totalBytes / 1024) ++ " KB\n" ++
    "Used memory:  " ++ toString (stats.usedBytes / 1024) ++ " KB\n" ++
    "Free memory:  " ++ toString (stats.freeBytes / 1024) ++ " KB\n" ++
    "Total pages:  " ++ toString stats.totalPages ++ "\n" ++
    "Free pages:   " ++ toString stats.freePages ++ "\n" ++
    "Used pages:   " ++ toString usedPages ++ "\n" ++
    "Heap used:    " ++ toString stats.heapUsedBytes ++ " bytes\n" ++
    "Heap free:    " ++ toString stats.heapFreeBytes ++ " bytes"

end MemoryStats

end KernelCore
