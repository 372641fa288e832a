import KernelCore.Operation

/-!
# The frame bitmap

Which frames of physical memory are in use. The bitmap has one bit for each tracked frame, 32 to a
word, and a set bit means that the frame is used. `FrameBitmap.isSet` is the bit of a frame, and
`FrameBitmap.isUsed` adds that frames past the end of tracked memory count as used.

Allocation is first fit: the free frame with the least number. Frames below the reserved end start
out used, and the bits past the last tracked frame stay set, so a word with a clear bit always has
a free frame to offer.
-/

namespace KernelCore

/-- The tracked frames and which of them are in use. -/
structure FrameBitmap where
  /-- How many frames are tracked. -/
  totalFrames : Nat
  /-- How many of them are free. -/
  freeFrames : Nat
  /-- How many of them were set aside from the start. -/
  reservedFrames : Nat
  /-- A bit for each frame, set if the frame is in use. -/
  words : Array UInt32
  deriving DecidableEq, Repr

namespace FrameBitmap

def empty : FrameBitmap :=
  { totalFrames := 0, freeFrames := 0, reservedFrames := 0, words := #[] }

def wordBit (word : UInt32) (index : Nat) : Bool :=
  word.toNat.testBit index

/-- The word whose only set bit is bit `index`. -/
def wordMask (index : Nat) : UInt32 :=
  UInt32.ofNat (1 <<< index)

/-- A mask has its own bit set and no other. -/
theorem wordBit_wordMask (index other : Nat) (inside : index < 32) :
    wordBit (wordMask index) other = decide (index = other) := by
  have small : 2 ^ index < 2 ^ 32 := Nat.pow_lt_pow_right (by decide) inside
  rw [wordBit, wordMask, Nat.one_shiftLeft, UInt32.toNat_ofNat_of_lt' small, Nat.testBit_two_pow]

theorem wordBit_or (left right : UInt32) (index : Nat) :
    wordBit (left ||| right) index = (wordBit left index || wordBit right index) := by
  simp [wordBit, UInt32.toNat_or, Nat.testBit_or]

theorem wordBit_and_not (left right : UInt32) (index : Nat) :
    wordBit (left &&& ~~~right) index = (wordBit left index && !wordBit right index) := by
  change (left &&& ~~~right).toBitVec.getLsbD index =
    (left.toBitVec.getLsbD index && !right.toBitVec.getLsbD index)
  by_cases inside : index < 32
  · simp [inside]
  · simp [Nat.le_of_not_lt inside]

/-- Every bit of a full word is set. -/
theorem wordBit_full {index : Nat} (inside : index < Layout.bitmapEntrySize) :
    wordBit Layout.fullBitmapEntry index = true := by
  have full : Layout.fullBitmapEntry.toNat = 2 ^ Layout.bitmapEntrySize - 1 := by decide
  simp [wordBit, full, Nat.testBit_two_pow_sub_one, inside]

/-- The least index of a clear bit, or 32 if all bits are set. -/
def lowestClear (word : UInt32) : Nat :=
  (List.range Layout.bitmapEntrySize).findIdx fun index => !wordBit word index

/-- A word of the bitmap; past the last one all bits count as set. -/
def word (bitmap : FrameBitmap) (index : Nat) : UInt32 :=
  bitmap.words.getD index Layout.fullBitmapEntry

/-- The bit of a frame; frames without a bit count as used. -/
def isSet (bitmap : FrameBitmap) (number : Nat) : Bool :=
  wordBit (bitmap.word (number / Layout.bitmapEntrySize)) (number % Layout.bitmapEntrySize)

/-- Whether a frame is in use or lies past the end of tracked memory. -/
def isUsed (bitmap : FrameBitmap) (frame : Frame) : Bool :=
  bitmap.totalFrames ≤ frame.number.val || bitmap.isSet frame.number.val

/-- Adds a used frame to runs of used frames that end below it, the last run first. -/
def extendRuns (number : Nat) : List (Nat × Nat) → List (Nat × Nat)
  | [] => [(number, 1)]
  | (first, count) :: rest =>
      if first + count = number then
        (first, count + 1) :: rest
      else
        (number, 1) :: (first, count) :: rest

/-- The longest runs of used frames, each as its first number and its length. -/
def usedRuns (bitmap : FrameBitmap) : List (Nat × Nat) :=
  ((List.range bitmap.totalFrames).foldl
    (fun runs number => if bitmap.isSet number then extendRuns number runs else runs) []).reverse

/-- How many frames are in use beyond the number set aside. -/
def outstanding (bitmap : FrameBitmap) : Except Fault Nat := do
  let used ← Checked.sub bitmap.totalFrames bitmap.freeFrames
  Checked.sub used bitmap.reservedFrames

/-- Word `index` of a bitmap in which the frames from `reserved` up to `total` are free. -/
def initialWord (total reserved index : Nat) : UInt32 :=
  (List.range Layout.bitmapEntrySize).foldl
    (fun word bit =>
      let number := index * Layout.bitmapEntrySize + bit
      if reserved ≤ number ∧ number < total then word else word ||| wordMask bit)
    0

/-- A bitmap of `total` frames whose first `reserved` frames are used. -/
def fresh (total reserved : Nat) : FrameBitmap :=
  let entries := (total + Layout.bitmapEntrySize - 1) / Layout.bitmapEntrySize
  { totalFrames := total
    freeFrames := total - reserved
    reservedFrames := reserved
    words := (Array.range entries).map (initialWord total reserved) }

/-- Sets the bitmap up for so many bytes of memory, of which those below `reservedEnd` are never
handed out. If nothing would be left, the request is refused. -/
def reset (totalBytes : Nat) (reservedEnd : UInt32) : Fallible FrameBitmap FrameError Unit := do
  if Layout.maxPhysicalMemory < totalBytes then
    log (.memoryIgnored ((totalBytes - Layout.maxPhysicalMemory) / 1024))
  let total := min totalBytes Layout.maxPhysicalMemory / Layout.frameSize
  let reserved := (reservedEnd.toNat + Layout.frameSize - 1) / Layout.frameSize
  if total ≤ reserved then
    throw .insufficientMemory
  let bitmap := fresh total reserved
  log (.bitmapReady bitmap.totalFrames bitmap.freeFrames bitmap.words.size)
  set bitmap

def firstClear (bitmap : FrameBitmap) : Option Nat :=
  (bitmap.words.findIdx? (· != Layout.fullBitmapEntry)).map fun index =>
    index * Layout.bitmapEntrySize + lowestClear (bitmap.word index)

/-- Sets the bit of a frame that is free. -/
def take (number : Nat) : FrameBitmap → Except Fault FrameBitmap
  | { totalFrames, freeFrames, reservedFrames, words } => do
      let freeFrames ← Checked.sub freeFrames 1
      let words := words.modify (number / Layout.bitmapEntrySize)
        (· ||| wordMask (number % Layout.bitmapEntrySize))
      return { totalFrames, freeFrames, reservedFrames, words }

/-- Clears the bit of a frame that is used. -/
def release (number : Nat) : FrameBitmap → FrameBitmap
  | { totalFrames, freeFrames, reservedFrames, words } =>
      let words := words.modify (number / Layout.bitmapEntrySize)
        (· &&& ~~~wordMask (number % Layout.bitmapEntrySize))
      { totalFrames, freeFrames := freeFrames + 1, reservedFrames, words }

/-- Within one word, the bit index tells frames apart. -/
theorem mod_eq_iff {number other : Nat}
    (same : number / Layout.bitmapEntrySize = other / Layout.bitmapEntrySize) :
    number % Layout.bitmapEntrySize = other % Layout.bitmapEntrySize ↔ number = other := by
  simp only [Layout.bitmapEntrySize] at *
  omega

/-- Taking a frame sets its bit and leaves all others as they are. -/
theorem isSet_take {bitmap taken : FrameBitmap} {number : Nat}
    (done : take number bitmap = .ok taken) (other : Nat) :
    taken.isSet other = (bitmap.isSet other || decide (number = other)) := by
  obtain ⟨total, free, reserved, words⟩ := bitmap
  have bound : number % Layout.bitmapEntrySize < 32 := Nat.mod_lt _ (by decide)
  cases left : Checked.sub free 1 with
  | error fault => simp [take, left, bind, Except.bind] at done
  | ok rest =>
      simp only [take, left, bind, Except.bind, pure, Except.pure, Except.ok.injEq] at done
      subst done
      simp only [isSet, word, Array.getD_eq_getD_getElem?, Array.getElem?_modify]
      by_cases same : number / Layout.bitmapEntrySize = other / Layout.bitmapEntrySize
      · rw [if_pos same, ← same]
        by_cases inside : number / Layout.bitmapEntrySize < words.size
        · simp [inside, wordBit_or, wordBit_wordMask _ _ bound, mod_eq_iff same]
        · have full : wordBit Layout.fullBitmapEntry (other % Layout.bitmapEntrySize) = true :=
            wordBit_full (Nat.mod_lt _ (by decide))
          simp [inside, full]
      · have differ : number ≠ other := fun equal => same (by rw [equal])
        simp [same, differ]

/-- Releasing a frame that has a bit clears it and leaves all others as they are. -/
theorem isSet_release (bitmap : FrameBitmap) (number other : Nat)
    (inside : number / Layout.bitmapEntrySize < bitmap.words.size) :
    (release number bitmap).isSet other = (bitmap.isSet other && decide (number ≠ other)) := by
  obtain ⟨total, free, reserved, words⟩ := bitmap
  have bound : number % Layout.bitmapEntrySize < 32 := Nat.mod_lt _ (by decide)
  simp only [release, isSet, word, Array.getD_eq_getD_getElem?, Array.getElem?_modify]
  by_cases same : number / Layout.bitmapEntrySize = other / Layout.bitmapEntrySize
  · rw [if_pos same, ← same]
    simp [inside, wordBit_and_not, wordBit_wordMask _ _ bound, mod_eq_iff same]
  · have differ : number ≠ other := fun equal => same (by rw [equal])
    simp [same, differ]

/-- Hands out the free frame with the least number, if there is one. -/
def allocate : Operation FrameBitmap (Option Frame) := fun bitmap =>
  match bitmap.firstClear with
  | none => .ok ⟨none, bitmap, []⟩
  | some number =>
      if number < bitmap.totalFrames then
        match take number bitmap with
        | .error fault => .error fault
        | .ok bitmap => .ok ⟨some (.ofNumber number), bitmap, []⟩
      else
        .ok ⟨none, bitmap, []⟩

def free (frame : Frame) : Fallible FrameBitmap FrameError Unit := do
  let number := frame.number.val
  if (← get).totalFrames ≤ number then
    throw .outOfRange
  if !(← get).isSet number then
    throw .alreadyFree
  modify (release number)

end FrameBitmap

end KernelCore
