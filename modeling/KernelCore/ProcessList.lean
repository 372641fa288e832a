import KernelCore.Process

/-!
# The process list

The listing of processes for users: a heading, and a line for each process with its columns
aligned to the left.
-/

namespace KernelCore.ProcessList

def heading : String :=
  "Process List:\n" ++
  "PID  Name           State    Priority  CPU Time\n" ++
  "---  ----           -----    --------  --------\n"

def line (info : ProcessInfo) : String :=
  Text.padRight 3 info.pid.text ++ "  " ++ Text.padRight 13 info.name ++ "  " ++
    Text.padRight 7 info.state.name ++ "  " ++ Text.padRight 8 (toString info.priority) ++ "  " ++
    toString info.totalTicks ++ "\n"

def render (infos : List ProcessInfo) : String :=
  heading ++ String.join (infos.map line)

end KernelCore.ProcessList
