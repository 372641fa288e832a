/-!
# Process ids

A process id is a 32-bit word of its own type. Zero never belongs to a process; where it appears
it means that there is none.
-/

namespace KernelCore

/-- The number that a process is known by. -/
structure Pid where
  word : UInt32
  deriving DecidableEq, Repr

namespace Pid

def text (pid : Pid) : String :=
  toString pid.word

def describe (pid : Pid) : String :=
  "Pid(" ++ pid.text ++ ")"

/-- A possible id as it appears in diagnostics. -/
def describeOption : Option Pid → String
  | none => "None"
  | some pid => "Some(" ++ pid.describe ++ ")"

end Pid

end KernelCore
