import KernelCore.Error
import KernelCore.Layout

/-!
# System calls

A system call arrives as a number and three words. Decoding either yields a `Syscall` with just the
arguments it has, or says why the request makes no sense. Only a write refers to memory: its second
word is an address and its third a count of bytes there.
-/

namespace KernelCore

/-- A request of a process to the kernel. -/
inductive Syscall where
  | exit (code : Int32)
  | getPid
  | sleep (milliseconds : UInt32)
  | write (stream : UInt64) (bytes : List UInt8)
  deriving DecidableEq, Repr

/-- A system call as it arrives. -/
structure RawSyscall where
  number : UInt64
  first : UInt64
  /-- For a write, where the bytes are. -/
  second : UInt64
  /-- For a write, how many bytes there are. -/
  third : UInt64
  deriving DecidableEq, Repr

namespace Syscall

/-- The request that a raw system call stands for. For a write, `bytesAt` gives the bytes of the
caller's memory at an address. -/
def decode (bytesAt : UInt64 → (count : Nat) → List UInt8) (raw : RawSyscall) :
    Except SyscallError Syscall :=
  if raw.number = Layout.exitNumber then
    .ok (.exit raw.first.toUInt32.toInt32)
  else if raw.number = Layout.getPidNumber then
    .ok .getPid
  else if raw.number = Layout.sleepNumber then
    .ok (.sleep (UInt32.ofNat (min raw.first.toNat (UInt32.size - 1))))
  else if raw.number = Layout.writeNumber then
    if raw.third = 0 then
      .ok (.write raw.first [])
    else if raw.second = 0 then
      .error .badBuffer
    else
      .ok (.write raw.first (bytesAt raw.second raw.third.toNat))
  else
    .error (.unknown raw.number)

end Syscall

end KernelCore
