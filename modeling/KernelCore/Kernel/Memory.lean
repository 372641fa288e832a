import KernelCore.Kernel.Basic

/-!
# Memory operations of the kernel

Frames, heap and address spaces as the rest of the system asks for them. Each operation does what
the part concerned does, with interrupts off.
-/

namespace KernelCore.Kernel

/-- Hands out the free frame with the least number. -/
def allocateFrame : Operation Kernel (Option Frame) :=
  masked (onFrames FrameBitmap.allocate)

def freeFrame (frame : Frame) : Fallible Kernel FrameError Unit :=
  maskedFallible (onFrames (FrameBitmap.free frame))

def kmalloc (size : UInt32) : Fallible Kernel HeapError UInt32 :=
  maskedFallible (onHeap (Heap.allocate size))

def kfree (address : UInt32) : Fallible Kernel HeapError Unit :=
  maskedFallible (onHeap (Heap.free address))

/-- Makes an address space that maps what the kernel's does. -/
def createDirectory : Fallible Kernel MapError Directory :=
  maskedFallible (onSpaces AddressSpaces.createProcessDirectory)

def switchAddressSpace (directory : Directory) : Operation Kernel Unit :=
  masked (onSpaces (AddressSpaces.switchTo directory))

/-- Maps a page in the active address space. -/
def map (virtual : VirtAddr) (physical : PhysAddr) (flags : PageFlags) :
    Fallible Kernel MapError Unit :=
  maskedFallible (onSpaces (AddressSpaces.map virtual physical flags))

/-- Removes the mapping of a page in the active address space. -/
def unmap (virtual : VirtAddr) : Fallible Kernel MapError Frame :=
  maskedFallible (onSpaces (AddressSpaces.unmap virtual))

end KernelCore.Kernel
