import KernelCore.Operation

/-!
# The kernel heap

A first-fit allocator for a region of the address space. The region is divided without gaps into
blocks, each with a header of 16 bytes in front of its payload. The blocks are kept in an arena of
slots and linked by slot in the order of their addresses; `Heap.blocks` reads that list.

An allocation takes the first free block that is large enough and cuts off what is not needed,
unless too little would be left or no slot is spare. Freeing a block merges it with free
neighbours, so that no two free blocks are ever next to each other.
-/

namespace KernelCore

/-- A place in the arena of block descriptions. -/
abbrev BlockSlot : Type := Fin Layout.maxHeapBlocks

/-- A stretch of the heap's region. -/
structure Block where
  /-- Where the payload begins. -/
  address : UInt32
  /-- Bytes of payload. -/
  size : UInt32
  /-- Whether the block can be handed out. -/
  free : Bool
  /-- The slot of the block that follows in memory. -/
  next : Option BlockSlot
  deriving DecidableEq, Repr

/-- A region of memory and its division into blocks. -/
structure Heap where
  regionStart : UInt32
  regionEnd : UInt32
  slots : Vector (Option Block) Layout.maxHeapBlocks
  /-- The slot of the first block. -/
  head : Option BlockSlot
  /-- Bytes of payload in blocks that are not free. -/
  usedBytes : UInt32
  deriving DecidableEq

namespace Heap

def empty : Heap :=
  { regionStart := 0
    regionEnd := 0
    slots := Vector.replicate Layout.maxHeapBlocks none
    head := none
    usedBytes := 0 }

/-- The slots on the list from `cursor` on, as far as `fuel` of them. -/
def follow (heap : Heap) : (fuel : Nat) → (cursor : Option BlockSlot) → List BlockSlot
  | 0, _ => []
  | _ + 1, none => []
  | fuel + 1, some slot => slot :: heap.follow fuel (heap.slots[slot].bind Block.next)

/-- The slots on the list, from the first block on. A list without cycles visits no slot twice, so
as many steps as there are slots reach its end. -/
def chain (heap : Heap) : List BlockSlot :=
  heap.follow Layout.maxHeapBlocks heap.head

def block (heap : Heap) (slot : BlockSlot) : Except Fault Block :=
  match heap.slots[slot] with
  | some block => .ok block
  | none => .error (.emptySlot slot)

/-- The blocks in the order of their addresses. -/
def blocks (heap : Heap) : Except Fault (List Block) :=
  heap.chain.mapM heap.block

def blockCount (heap : Heap) : Except Fault Nat :=
  return (← heap.blocks).length

def regionSize (heap : Heap) : Except Fault UInt32 :=
  Checked.sub32 heap.regionEnd heap.regionStart

def freeBytes (heap : Heap) : Except Fault UInt32 := do
  let free := (← heap.blocks).filter Block.free
  free.foldlM (fun sum block => Checked.add32 sum block.size) 0

def spareSlot (heap : Heap) : Option BlockSlot :=
  heap.slots.findFinIdx? Option.isNone

/-- Puts a block into a slot, or empties the slot. -/
def put (slot : BlockSlot) (content : Option Block) : Heap → Heap
  | { regionStart, regionEnd, slots, head, usedBytes } =>
      { regionStart, regionEnd, slots := slots.set slot content, head, usedBytes }

/-- Putting changes what its slot holds and no other. -/
theorem slots_put (heap : Heap) (slot other : BlockSlot) (content : Option Block) :
    (heap.put slot content).slots[other] = if slot = other then content else heap.slots[other] := by
  simp [put, Vector.getElem_set, Fin.ext_iff]

/-- A heap whose region is a single free block, or nothing if the region is too small for one. -/
def ofRegion (first past : UInt32) : Except Fault (Except HeapError Heap) :=
  if past ≤ first ∨ past - first ≤ Layout.blockHeaderSize then
    .ok (.error .regionTooSmall)
  else do
    let address ← Checked.add32 first Layout.blockHeaderSize
    let size ← Checked.sub32 past address
    let slots := empty.slots.set 0 (some { address, size, free := true, next := none })
    return .ok { regionStart := first, regionEnd := past, slots, head := some 0, usedBytes := 0 }

/-- Makes the given region the heap, and forgets every block. -/
def reset (first past : UInt32) : Fallible Heap HeapError Unit := do
  match ← (ofRegion first past : Except Fault _) with
  | .error cause => throw cause
  | .ok heap =>
      set heap
      log (.heapReady first past)

/-- A request rounded up to the alignment of the heap, if the result is a word. -/
def roundUp (size : UInt32) : Option UInt32 :=
  let reach := size.toNat + (Layout.heapAlign.toNat - 1)
  if reach < UInt32.size then
    some (UInt32.ofNat (reach / Layout.heapAlign.toNat * Layout.heapAlign.toNat))
  else
    none

/-- The largest block that a request of the given rounded size takes whole. -/
def splitThreshold (size : UInt32) : UInt32 :=
  UInt32.ofNat
    (min (size.toNat + Layout.blockHeaderSize.toNat + Layout.splitSlop.toNat) (UInt32.size - 1))

/-- The slot of the first free block with at least the given size. -/
def firstFit (heap : Heap) (size : UInt32) : Option BlockSlot :=
  heap.chain.find? fun slot =>
    match heap.slots[slot] with
    | some block => block.free && size ≤ block.size
    | none => false

/-- Cuts the block in `slot` down to the given size. The rest of it becomes a free block in the
slot `spare`. -/
def split (slot spare : BlockSlot) (block : Block) (size : UInt32) (heap : Heap) :
    Except Fault Heap := do
  let past ← Checked.add32 block.address size
  let address ← Checked.add32 past Layout.blockHeaderSize
  let remainder ← Checked.sub32 block.size size
  let remainder ← Checked.sub32 remainder Layout.blockHeaderSize
  let tail : Block := { address, size := remainder, free := true, next := block.next }
  return (heap.put spare (some tail)).put slot (some { block with size, next := some spare })

/-- Marks the block in `slot` as used, and answers with its address. -/
def grant (slot : BlockSlot) : Operation Heap UInt32 := do
  let block ← (← get).block slot
  let usedBytes ← Checked.add32 (← get).usedBytes block.size
  modify fun heap => { heap.put slot (some { block with free := false }) with usedBytes }
  return block.address

/-- Hands out the first free block that can hold `size` bytes, cut down to what is needed. -/
def allocate (size : UInt32) : Fallible Heap HeapError UInt32 := do
  let some size := roundUp size | throw .outOfMemory
  let some slot := (← get).firstFit size
    | log (.heapExhausted size)
      throw .outOfMemory
  let block ← (← get).block slot
  if splitThreshold size < block.size then
    match (← get).spareSlot with
    | some spare => set (← (← get).split slot spare block size)
    | none => log .arenaFull
  grant slot

/-- The slot of the block whose payload begins at the given address. -/
def findAddress (heap : Heap) (address : UInt32) : Except Fault (Option BlockSlot) :=
  heap.chain.findM? fun slot => return (← heap.block slot).address == address

/-- The slot of the block that links to the given slot. -/
def findBefore (heap : Heap) (slot : BlockSlot) : Except Fault (Option BlockSlot) :=
  heap.chain.findM? fun before => return (← heap.block before).next == some slot

/-- Lets the block in `slot` take over the payload and the header of the block in `next`, which
follows it. -/
def absorb (slot next : BlockSlot) (heap : Heap) : Except Fault Heap := do
  let block ← heap.block slot
  let other ← heap.block next
  let gain ← Checked.add32 other.size Layout.blockHeaderSize
  let size ← Checked.add32 block.size gain
  return (heap.put slot (some { block with size, next := other.next })).put next none

/-- Merges the block in `slot` with the block that follows it, if that one is free. -/
def mergeAfter (slot : BlockSlot) (heap : Heap) : Except Fault Heap := do
  match (← heap.block slot).next with
  | none => return heap
  | some next =>
      if (← heap.block next).free then
        heap.absorb slot next
      else
        return heap

/-- Merges the block in `slot` into the block before it, if that one is free. -/
def mergeBefore (slot : BlockSlot) (heap : Heap) : Except Fault Heap := do
  match ← heap.findBefore slot with
  | none => return heap
  | some before =>
      if (← heap.block before).free then
        heap.absorb before slot
      else
        return heap

/-- Takes back the block whose payload begins at the given address. -/
def free (address : UInt32) : Fallible Heap HeapError Unit := do
  let some slot ← (← get).findAddress address | throw .unknownAddress
  let block ← (← get).block slot
  if block.free then
    throw .doubleFree
  let usedBytes ← Checked.sub32 (← get).usedBytes block.size
  modify fun heap => { heap.put slot (some { block with free := true }) with usedBytes }
  let heap ← (← get).mergeAfter slot
  set (← heap.mergeBefore slot)

end Heap

end KernelCore
