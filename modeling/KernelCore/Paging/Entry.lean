import KernelCore.Address
import KernelCore.Paging.Flags

/-!
# Page table entries

An entry is a word: the number of a frame in its upper twenty bits, flags in the lower twelve. The
frame counts only while the entry is present.
-/

namespace KernelCore

/-- A word of a page directory or a page table. -/
structure Entry where
  word : UInt32
  deriving DecidableEq, Repr

namespace Entry

def empty : Entry := ⟨0⟩

/-- The low bits of an entry, which hold its flags. -/
def flagMask : UInt32 := 0xFFF

/-- An entry for a frame. All bits of the flags go into the word, also undeclared ones. -/
def ofFrame (frame : Frame) (flags : PageFlags) : Entry :=
  ⟨frame.start.word ||| flags.bits⟩

def flags (entry : Entry) : PageFlags :=
  PageFlags.truncate ⟨entry.word &&& flagMask⟩

def isPresent (entry : Entry) : Bool :=
  entry.flags.contains .present

/-- The frame that the entry names, if it is in force. -/
def frame (entry : Entry) : Option Frame :=
  if entry.isPresent then some (.containing ⟨entry.word⟩) else none

/-- The entry with other flags. All bits of the flags go into the word, also undeclared ones. -/
def withFlags (entry : Entry) (flags : PageFlags) : Entry :=
  ⟨(entry.word &&& ~~~flagMask) ||| flags.bits⟩

def describe (entry : Entry) : String :=
  "PageTableEntry \x7b frame: " ++ Text.hex (entry.word &&& ~~~flagMask).toNat ++ ", flags: " ++
    entry.flags.describe ++ " \x7d"

end Entry

end KernelCore
