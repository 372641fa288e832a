/-!
# Page flags

The permissions and marks of an entry in a page directory or a page table. A value holds any 32
bits that a caller supplies; nine of them are declared, and `PageFlags.truncate` keeps just those.
-/

namespace KernelCore

/-- Bits of a page directory or page table entry. -/
structure PageFlags where
  bits : UInt32
  deriving DecidableEq, Repr

namespace PageFlags

def none : PageFlags := ⟨0⟩

def present : PageFlags := ⟨1⟩

def writable : PageFlags := ⟨2⟩

def user : PageFlags := ⟨4⟩

def writeThrough : PageFlags := ⟨8⟩

def cacheDisable : PageFlags := ⟨16⟩

def accessed : PageFlags := ⟨32⟩

def dirty : PageFlags := ⟨64⟩

def hugePage : PageFlags := ⟨128⟩

/-- The mapping stays cached when the directory changes. -/
def global : PageFlags := ⟨256⟩

/-- The declared flags with their names, from the lowest bit up. -/
def declared : List (PageFlags × String) :=
  [(present, "PRESENT"), (writable, "WRITABLE"), (user, "USER"),
    (writeThrough, "WRITE_THROUGH"), (cacheDisable, "CACHE_DISABLE"), (accessed, "ACCESSED"),
    (dirty, "DIRTY"), (hugePage, "HUGE_PAGE"), (global, "GLOBAL")]

def all : PageFlags := ⟨0x1FF⟩

def union (left right : PageFlags) : PageFlags :=
  ⟨left.bits ||| right.bits⟩

/-- The flags of the first without those of the second. -/
def diff (left right : PageFlags) : PageFlags :=
  ⟨left.bits &&& ~~~right.bits⟩

/-- Whether all flags of the second are among the first. -/
def contains (left right : PageFlags) : Bool :=
  left.bits &&& right.bits == right.bits

def truncate (flags : PageFlags) : PageFlags :=
  ⟨flags.bits &&& all.bits⟩

/-- The flags, if all bits are declared ones. -/
def strict (flags : PageFlags) : Option PageFlags :=
  if flags.truncate = flags then some flags else .none

/-- The names of declared flags as they appear in diagnostics. -/
def describe (flags : PageFlags) : String :=
  let names := (declared.filter fun (flag, _) => flags.contains flag).map Prod.snd
  let body := if names.isEmpty then "0x0" else " | ".intercalate names
  "PageFlags(" ++ body ++ ")"

end PageFlags

end KernelCore
