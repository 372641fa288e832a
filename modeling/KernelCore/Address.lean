import KernelCore.Layout
import KernelCore.Text

/-!
# Addresses and frames

Physical and virtual addresses are 32-bit words that must not be confused, so each is a type of
its own. A virtual address splits into a directory index, a table index and an offset. A physical
address lies in a `Frame`, one of the 2 ^ 20 blocks of 4 KiB, and a frame is known by its number.
-/

namespace KernelCore

/-- An address in physical memory. -/
structure PhysAddr where
  word : UInt32
  deriving DecidableEq, Repr

/-- An address that is translated before it reaches physical memory. -/
structure VirtAddr where
  word : UInt32
  deriving DecidableEq, Repr

/-- A block of physical memory with 4096 bytes, known by its number. -/
structure Frame where
  number : Fin Layout.addressableFrames
  deriving DecidableEq, Hashable, Repr

/-- The frame that holds a page directory stands for the address space it describes. -/
structure Directory where
  frame : Frame
  deriving DecidableEq, Repr

namespace PhysAddr

def describe (address : PhysAddr) : String :=
  "PhysAddr(" ++ Text.hex address.word.toNat ++ ")"

end PhysAddr

namespace VirtAddr

/-- The index into the page directory: the top ten bits. -/
def directoryIndex (address : VirtAddr) : Fin Layout.pageEntries :=
  Fin.ofNat Layout.pageEntries (address.word.toNat / (Layout.pageEntries * Layout.frameSize))

/-- The index into the page table: the middle ten bits. -/
def tableIndex (address : VirtAddr) : Fin Layout.pageEntries :=
  Fin.ofNat Layout.pageEntries (address.word.toNat / Layout.frameSize)

/-- The offset into the page: the low twelve bits. -/
def pageOffset (address : VirtAddr) : UInt32 :=
  address.word &&& 0xFFF

def describe (address : VirtAddr) : String :=
  "VirtAddr(" ++ Text.hex address.word.toNat ++ ")"

end VirtAddr

namespace Frame

/-- The frame with the given number; bits above the low twenty are lost. -/
def ofNumber (number : Nat) : Frame :=
  ⟨Fin.ofNat Layout.addressableFrames number⟩

def containing (address : PhysAddr) : Frame :=
  ofNumber (address.word.toNat / Layout.frameSize)

def start (frame : Frame) : PhysAddr :=
  ⟨UInt32.ofNat (frame.number.val * Layout.frameSize)⟩

def compare (left right : Frame) : Ordering :=
  Ord.compare left.number right.number

def describe (frame : Frame) : String :=
  "PhysFrame(" ++ Text.hex frame.start.word.toNat ++ ")"

end Frame

namespace Directory

def describe (directory : Directory) : String :=
  "Directory(" ++ directory.frame.describe ++ ")"

end Directory

end KernelCore
