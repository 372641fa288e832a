import KernelCore.Interrupts

/-!
# Coming to rest

The two ways in which the processor stops doing work. Idling waits for one interrupt after the
other, and never ends of its own accord. After something unrecoverable the processor waits in the
same way, but first the reason is logged and interrupts are turned off for good.

Neither ends, so each is described by what it does up to a given number of waits.
-/

namespace KernelCore.Halt

variable {State : Type}

def idle (halts : Nat) : Operation State Unit :=
  perform (List.replicate halts (.cpu .halt))

/-- Turns interrupts off, logs the reason, and waits as often as given. -/
def unrecoverable [Maskable State] (reason : String) (halts : Nat) : Operation State Unit := do
  disableInterrupts
  log (.unrecoverable reason)
  idle halts

end KernelCore.Halt
