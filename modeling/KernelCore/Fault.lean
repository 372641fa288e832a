/-!
# Faults and checked arithmetic

The kernel computes with fixed-width words and never lets a sum or a difference wrap silently:
a result that does not fit stops the kernel on the spot. `Fault` names every such stop, and the
functions under `Checked` are the only additions and subtractions that can cause one.

A fault is not an error that a caller handles. Errors are values of the types in
`KernelCore.Error`, and they leave the kernel running.
-/

namespace KernelCore

/-- A condition that the kernel cannot survive. -/
inductive Fault where
  | addOverflow
  | subOverflow
  /-- An index lies past the end of a table with `size` entries. -/
  | indexOutOfBounds (size index : Nat)
  /-- A link of the heap's block list names a slot that holds no block. -/
  | emptySlot (slot : Nat)
  /-- A search has no end, because the links it follows form a cycle. -/
  | endlessSearch
  /-- A wait for a lock has no end, because nothing runs that could give the lock back. -/
  | heldLock
  deriving DecidableEq, Repr

namespace Fault

/-- What the kernel reports about the fault as it stops. -/
def message : Fault → String
  | addOverflow => "attempt to add with overflow"
  | subOverflow => "attempt to subtract with overflow"
  | indexOutOfBounds size index =>
      "index out of bounds: the len is " ++ toString size ++ " but the index is " ++ toString index
  | emptySlot slot =>
      "internal error: entered unreachable code: heap list links to empty slot " ++ toString slot
  | endlessSearch => "search does not end"
  | heldLock => "wait for a held lock does not end"

end Fault

namespace Checked

/-- The sum of two 32-bit words, if it is one. -/
def add32 (left right : UInt32) : Except Fault UInt32 :=
  if left.toNat + right.toNat < UInt32.size then .ok (left + right) else .error .addOverflow

/-- The difference of two 32-bit words, if it is not negative. -/
def sub32 (left right : UInt32) : Except Fault UInt32 :=
  if right ≤ left then .ok (left - right) else .error .subOverflow

/-- The sum of two 64-bit words, if it is one. -/
def add64 (left right : UInt64) : Except Fault UInt64 :=
  if left.toNat + right.toNat < UInt64.size then .ok (left + right) else .error .addOverflow

/-- The difference of two counts, if it is not negative. -/
def sub (left right : Nat) : Except Fault Nat :=
  if right ≤ left then .ok (left - right) else .error .subOverflow

end Checked

end KernelCore
