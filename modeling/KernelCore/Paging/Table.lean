import KernelCore.Fault
import KernelCore.Paging.Entry
import Std.Data.HashMap

/-!
# Page tables and physical memory

Directories and tables have the same shape: 1024 entries, which fill a frame. `Memory` is physical
memory seen as such: every frame holds a table, and a frame that was never written holds zeros.
-/

namespace KernelCore

/-- The contents of a frame, as entries. -/
abbrev Table : Type := Vector Entry Layout.pageEntries

namespace Table

def zero : Table := Vector.replicate Layout.pageEntries Entry.empty

/-- The entry with any index, if there is one. -/
def entry (table : Table) (index : Nat) : Except Fault Entry :=
  if inside : index < Layout.pageEntries then
    .ok table[index]
  else
    .error (.indexOutOfBounds Layout.pageEntries index)

/-- The table with another entry at any index, if there is one. -/
def setEntry (table : Table) (index : Nat) (entry : Entry) : Except Fault Table :=
  if inside : index < Layout.pageEntries then
    .ok (table.set index entry)
  else
    .error (.indexOutOfBounds Layout.pageEntries index)

def presentCount (table : Table) : Nat :=
  table.toList.countP Entry.isPresent

/-- The words that are not zero, each with its index. -/
def nonzero (table : Table) : List (Nat × UInt32) :=
  (table.toList.zipIdx.map fun (entry, index) => (index, entry.word)).filter (·.2 ≠ 0)

end Table

/-- The contents of physical memory. -/
structure Memory where
  /-- The frames that were written. -/
  written : Std.HashMap Frame Table

namespace Memory

def zero : Memory := ⟨∅⟩

def table (memory : Memory) (frame : Frame) : Table :=
  memory.written.getD frame .zero

/-- An entry of the table in a frame. -/
def entry (memory : Memory) (frame : Frame) (index : Fin Layout.pageEntries) : Entry :=
  (memory.table frame)[index]

def setTable (frame : Frame) (table : Table) : Memory → Memory
  | ⟨written⟩ => ⟨written.insert frame table⟩

/-- Memory with another entry in the table of a frame. -/
def setEntry (frame : Frame) (index : Fin Layout.pageEntries) (entry : Entry) : Memory → Memory
  | ⟨written⟩ =>
      ⟨written.alter frame fun
        | some table => some (table.set index entry)
        | none => some (Table.zero.set index entry)⟩

@[simp]
theorem table_zero (frame : Frame) : zero.table frame = .zero := by
  simp [table, zero]

theorem table_setTable (memory : Memory) (frame other : Frame) (table : Table) :
    (memory.setTable frame table).table other =
      if frame = other then table else memory.table other := by
  obtain ⟨written⟩ := memory
  simp [setTable, Memory.table, Std.HashMap.getD_insert]

theorem table_setEntry (memory : Memory) (frame other : Frame) (index : Fin Layout.pageEntries)
    (entry : Entry) :
    (memory.setEntry frame index entry).table other =
      if frame = other then (memory.table frame).set index entry else memory.table other := by
  obtain ⟨written⟩ := memory
  by_cases same : frame = other
  · subst same
    cases found : written[frame]? <;>
      simp [setEntry, Memory.table, Std.HashMap.getD_eq_getD_getElem?, found]
  · simp [setEntry, Memory.table, Std.HashMap.getD_alter, same]

end Memory

end KernelCore
