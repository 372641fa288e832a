import KernelCore.Kernel.Lifecycle
import KernelCore.Syscall

/-!
# Serving system calls

What each system call does to the kernel, and what it returns to the caller. A call that makes no
sense is logged and returns the failure value; it has no other effect.
-/

namespace KernelCore

/-- What a system call returns to its caller, and the switch that it leads to. -/
structure SyscallReturn where
  value : UInt64
  plan : Option Switch := none
  deriving DecidableEq, Repr

namespace Kernel

def rejectSyscall (cause : SyscallError) : Operation Kernel SyscallReturn := do
  log (.syscallRejected cause)
  return { value := Layout.syscallFailure }

def syscall (call : Syscall) : Operation Kernel SyscallReturn :=
  masked do
    match call with
    | .exit code => return { value := 0, plan := ← exit code }
    | .getPid =>
        let pid := (← get).currentPid
        return { value := (pid.map fun pid => pid.word.toUInt64).getD 0 }
    | .sleep milliseconds => return { value := 0, plan := ← sleep milliseconds }
    | .write stream bytes =>
        if stream = Layout.standardOutput then
          print bytes
          return { value := UInt64.ofNat bytes.length }
        else
          rejectSyscall (.badStream stream)

/-- Decodes a system call and serves it, or refuses it if it makes no sense. -/
def dispatchSyscall (bytesAt : UInt64 → Nat → List UInt8) (raw : RawSyscall) :
    Operation Kernel SyscallReturn :=
  match Syscall.decode bytesAt raw with
  | .ok call => syscall call
  | .error cause => rejectSyscall cause

end Kernel

end KernelCore
