import KernelCore.FrameBitmap
import KernelCore.Paging.Table

/-!
# Address spaces

Virtual addresses lead to memory in two levels. A directory has an entry for each 4 MiB, which
names a table; a table has an entry for each page, which names a frame. `AddressSpaces` holds
physical memory, the frame bitmap that directories and tables are taken from, the directory that
is active, and the one that belongs to the kernel.

Directories of processes begin as copies of the kernel's, so they share its tables. The first
change that a process makes below a shared table gives it a private copy of that table; no other
address space sees the change. `translateIn` is the view of an address space that the operations
are to be judged by.
-/

namespace KernelCore

/-- Physical memory and the address spaces described in it. -/
structure AddressSpaces where
  frames : FrameBitmap
  memory : Memory
  /-- The address space that is active. -/
  current : Option Directory
  /-- The kernel's own address space, which others are copied from. -/
  kernel : Option Directory

namespace AddressSpaces

/-- No address space, on memory full of zeros. -/
def ofFrames (frames : FrameBitmap) : AddressSpaces :=
  { frames, memory := .zero, current := none, kernel := none }

/-- Does an operation on the frame bitmap. -/
@[inline]
def onFrames {Value : Type} (action : Operation FrameBitmap Value) :
    Operation AddressSpaces Value :=
  action.within
    (fun ⟨frames, memory, current, kernel⟩ => (frames, memory, current, kernel))
    (fun frames (memory, current, kernel) => ⟨frames, memory, current, kernel⟩)

/-- Changes physical memory. -/
@[inline]
def modifyMemory (change : Memory → Memory) : Operation AddressSpaces Unit :=
  modify fun ⟨frames, memory, current, kernel⟩ => ⟨frames, change memory, current, kernel⟩

/-- An entry of a directory or of a table. -/
@[inline]
def readEntry (frame : Frame) (index : Fin Layout.pageEntries) : Operation AddressSpaces Entry :=
  modifyGet fun spaces => (spaces.memory.entry frame index, spaces)

/-- The frame of a directory's table, if it has one at the index. -/
def tableFrame (spaces : AddressSpaces) (directory : Directory) (index : Fin Layout.pageEntries) :
    Option Frame :=
  (spaces.memory.entry directory.frame index).frame

/-- Whether the table that a directory names at an index is the kernel's table there. -/
def isShared (spaces : AddressSpaces) (directory : Directory) (index : Fin Layout.pageEntries)
    (table : Frame) : Bool :=
  match spaces.kernel with
  | some kernel => kernel ≠ directory && spaces.tableFrame kernel index == some table
  | none => false

/-- The physical address and the flags of the page that a virtual address lies on, if the address
space maps it. -/
def translateIn (spaces : AddressSpaces) (directory : Directory) (address : VirtAddr) :
    Option (PhysAddr × PageFlags) := do
  let table ← spaces.tableFrame directory address.directoryIndex
  let entry := spaces.memory.entry table address.tableIndex
  let frame ← entry.frame
  return (⟨frame.start.word ||| address.pageOffset⟩, entry.flags)

/-- Where a virtual address leads in the active address space, and with which flags. -/
def translate (spaces : AddressSpaces) (address : VirtAddr) : Option (PhysAddr × PageFlags) := do
  spaces.translateIn (← spaces.current) address

/-- Takes a frame for a directory or a table. -/
def takeFrame : Fallible AddressSpaces MapError Frame := do
  match ← Fallible.always (onFrames FrameBitmap.allocate) with
  | some frame => return frame
  | none => throw .frameAllocationFailed

def createDirectory : Fallible AddressSpaces MapError Directory := do
  let frame ← takeFrame
  modifyMemory (Memory.setTable frame .zero)
  return ⟨frame⟩

/-- Makes an address space that maps what the kernel's does, through the same tables. -/
def createProcessDirectory : Fallible AddressSpaces MapError Directory := do
  let directory ← createDirectory
  if let some kernel := (← get).kernel then
    modifyMemory fun memory => memory.setTable directory.frame (memory.table kernel.frame)
  return directory

/-- The table of a directory at an index, for writing: a table shared with the kernel is replaced
by a private copy first. -/
def writableTable (directory : Directory) (index : Fin Layout.pageEntries) :
    Fallible AddressSpaces MapError (Option Frame) := do
  let entry ← readEntry directory.frame index
  match entry.frame with
  | none => return none
  | some table =>
      if (← get).isShared directory index table then
        let copy ← takeFrame
        modifyMemory fun memory => memory.setTable copy (memory.table table)
        let entry ← readEntry directory.frame index
        modifyMemory (Memory.setEntry directory.frame index (.ofFrame copy entry.flags))
        log (.tableCopied directory index)
        return some copy
      else
        return some table

/-- The table of a directory at an index, for a page with the given flags to be entered: a missing
table is made, and the directory entry lets users through if the page does. -/
def tableFor (directory : Directory) (index : Fin Layout.pageEntries) (flags : PageFlags) :
    Fallible AddressSpaces MapError Frame := do
  match ← writableTable directory index with
  | some table =>
      if flags.contains .user then
        let entry ← readEntry directory.frame index
        modifyMemory (Memory.setEntry directory.frame index
          (entry.withFlags (entry.flags.union .user)))
      return table
  | none =>
      let table ← takeFrame
      let permissions := PageFlags.present.union .writable
      let permissions :=
        if flags.contains .user then permissions.union .user else permissions
      modifyMemory fun memory =>
        (memory.setTable table .zero).setEntry directory.frame index (.ofFrame table permissions)
      return table

/-- Drops the cached mapping of a page, if the directory is the active one. -/
def invalidateIn (directory : Directory) (address : VirtAddr) : Operation AddressSpaces Unit := do
  if (← get).current == some directory then
    signal (.invalidatePage address)

/-- Maps the page of a virtual address to the frame of a physical address. -/
def mapIn (directory : Directory) (virtual : VirtAddr) (physical : PhysAddr) (flags : PageFlags) :
    Fallible AddressSpaces MapError Unit := do
  let table ← tableFor directory virtual.directoryIndex flags
  modifyMemory (Memory.setEntry table virtual.tableIndex (.ofFrame (.containing physical) flags))
  invalidateIn directory virtual

/-- Removes the mapping of a virtual address's page, and answers with the frame it led to. -/
def unmapIn (directory : Directory) (virtual : VirtAddr) :
    Fallible AddressSpaces MapError Frame := do
  let some (physical, _) := (← get).translateIn directory virtual | throw .notMapped
  let some table ← writableTable directory virtual.directoryIndex | throw .notMapped
  let entry ← readEntry table virtual.tableIndex
  modifyMemory (Memory.setEntry table virtual.tableIndex
    (entry.withFlags (entry.flags.diff .present)))
  invalidateIn directory virtual
  return .containing physical

def active : Fallible AddressSpaces MapError Directory := do
  match (← get).current with
  | some directory => return directory
  | none => throw .noActiveDirectory

/-- Maps a page in the active address space. -/
def map (virtual : VirtAddr) (physical : PhysAddr) (flags : PageFlags) :
    Fallible AddressSpaces MapError Unit := do
  mapIn (← active) virtual physical flags

/-- Removes the mapping of a page in the active address space. -/
def unmap (virtual : VirtAddr) : Fallible AddressSpaces MapError Frame := do
  unmapIn (← active) virtual

/-- Makes the kernel's address space, in which every page below `past` is mapped to the frame with
the same address. -/
def initKernelDirectory (past : UInt32) : Fallible AddressSpaces MapError Directory := do
  let directory ← createDirectory
  Fallible.sweep (past.toNat / Layout.frameSize) 0 fun page =>
    let address := UInt32.ofNat (page * Layout.frameSize)
    mapIn directory ⟨address⟩ ⟨address⟩ (PageFlags.present.union .writable)
  modify fun ⟨frames, memory, current, _⟩ => ⟨frames, memory, current, some directory⟩
  log (.kernelDirectoryBuilt directory past)
  return directory

/-- The frames that belong to an address space alone: the tables it does not share with the
kernel, in the order of their indices, and then the directory itself. -/
def privateFrames (spaces : AddressSpaces) (directory : Directory) : List Frame :=
  let tables := (List.finRange Layout.pageEntries).filterMap fun index =>
    (spaces.tableFrame directory index).filter fun table =>
      !spaces.isShared directory index table
  tables ++ [directory.frame]

/-- Gives frames back, also after one is refused, and answers with the first refusal. -/
def releaseFrames : List Frame → Operation AddressSpaces (Except FrameError Unit)
  | [] => return .ok ()
  | frame :: rest => do
      let first ← onFrames (FrameBitmap.free frame).result
      let others ← releaseFrames rest
      return first.bind fun () => others

/-- Releases an address space. If it is active, the kernel's becomes active. -/
def destroyDirectory (directory : Directory) : Fallible AddressSpaces FrameError Unit := do
  let frames := (← get).privateFrames directory
  modify fun spaces =>
    if spaces.current = some directory then { spaces with current := spaces.kernel } else spaces
  releaseFrames frames

def switchTo (directory : Directory) : Operation AddressSpaces Unit := do
  modify fun spaces => { spaces with current := some directory }
  signal (.loadDirectory directory)
  log (.directorySwitched directory)

/-- Notes that an address space is about to be made active. -/
def recordLoaded (directory : Directory) : Operation AddressSpaces Unit :=
  modify fun spaces => { spaces with current := some directory }

end AddressSpaces

end KernelCore
