import KernelCore.Proofs.Kernel.Laps
import KernelCore.Proofs.Kernel.Refusal

/-!
# Stacks of live processes

The stack of a live process lies in the area set aside for stacks, and two live processes have
different stacks unless their ids differ by a multiple of the number of stacks. Ids go up with every
process that is created, so that it takes many of them until a stack is used again; but if a process
lives for that long, another one gets the same stack.
-/

namespace KernelCore

open ProcessTable

namespace ProcessRecord

/-- The stacks of two processes have nothing in common. -/
def StacksApart (process other : ProcessRecord) : Prop :=
  process.stackTop.toNat ≤ other.stackBase.toNat ∨ other.stackTop.toNat ≤ process.stackBase.toNat

/-- The stack lies in the area set aside for stacks. -/
structure StackInside (process : ProcessRecord) : Prop where
  above : Layout.processStacksStart.toNat ≤ process.stackBase.toNat
  extent : process.stackTop.toNat = process.stackBase.toNat + Layout.stackSize.toNat
  below : process.stackTop.toNat ≤ Layout.processStacksEnd.toNat

section Stacks

variable {process other : ProcessRecord} {pid : Pid}

theorem OwnStack.inside (own : process.OwnStack) : process.StackInside where
  above := by
    rw [own.1]
    exact (stack_inside process.pid).1
  extent := by
    rw [own.1, own.2]
    exact toNat_stackTopOf process.pid
  below := by
    rw [own.2]
    exact (stack_inside process.pid).2

theorem OwnStack.apart (own : process.OwnStack) (ownToo : other.OwnStack)
    (differ : ¬SameStack process.pid other.pid) : process.StacksApart other := by
  rw [StacksApart, own.1, own.2, ownToo.1, ownToo.2]
  exact stack_apart differ

theorem OwnStack.shared (own : process.OwnStack) (ownToo : other.OwnStack)
    (same : SameStack process.pid other.pid) : ¬process.StacksApart other := by
  have bases := stackBaseOf_eq same
  have extent := toNat_stackTopOf process.pid
  have extentToo := toNat_stackTopOf other.pid
  have size : Layout.stackSize.toNat = 4096 := rfl
  rw [StacksApart, own.1, own.2, ownToo.1, ownToo.2, extent, extentToo, bases]
  omega

/-- A word below the top of a stack. -/
theorem return_address_inside (pid : Pid) :
    (stackTopOf pid - 4).toNat + 4 = (stackTopOf pid).toNat := by
  have extent := toNat_stackTopOf pid
  have size : Layout.stackSize.toNat = 4096 := rfl
  have word : (4 : UInt32).toNat = 4 := rfl
  rw [UInt32.toNat_sub_of_le _ _ (by rw [UInt32.le_iff_toNat_le]; omega)]
  omega

end Stacks

end ProcessRecord

namespace Kernel

open ProcessRecord

section Stacks

variable {kernel : Kernel} {slot other : Slot}

theorem Reached.ownStack (reached : kernel.Reached)
    (live : (kernel.table.process slot).isLive = true) : (kernel.table.process slot).OwnStack :=
  reached.intact.housed.ownStack live

/-- Live processes in different slots have different ids. -/
theorem Reached.pid_ne (reached : kernel.Reached) (differ : slot ≠ other)
    (live : (kernel.table.process slot).isLive = true)
    (liveToo : (kernel.table.process other).isLive = true) :
    (kernel.table.process slot).pid ≠ (kernel.table.process other).pid := by
  intro same
  have here := identity_eq_some.mpr ⟨live, rfl, rfl⟩
  have there := identity_eq_some.mpr ⟨liveToo, same.symm, rfl⟩
  exact differ (reached.intact.housed.distinct slot other _ _ _ here there)

/-- In every state of a running kernel: the stack of a live process lies in the area set aside for
stacks; the stacks of two live processes have nothing in common, unless their ids, which differ, are
those of the same stack; and when a process is created, the word that is written lies in its stack,
and in the stack of no live process but one whose id is that of the same stack. -/
theorem Reached.stacks_apart (reached : kernel.Reached) :
    (∀ slot, (kernel.table.process slot).isLive = true →
      (kernel.table.process slot).StackInside) ∧
    (∀ slot other, slot ≠ other → (kernel.table.process slot).isLive = true →
      (kernel.table.process other).isLive = true →
      (kernel.table.process slot).pid ≠ (kernel.table.process other).pid ∧
      (¬SameStack (kernel.table.process slot).pid (kernel.table.process other).pid →
        (kernel.table.process slot).StacksApart (kernel.table.process other))) ∧
    ∀ name entry priority pid after effects top,
      (spawn name entry priority).result kernel = .ok ⟨.ok pid, after, effects⟩ →
      .cpu (.prepareStack top) ∈ effects →
      (stackBaseOf pid).toNat ≤ top.toNat ∧ top.toNat + 4 ≤ (stackTopOf pid).toNat ∧
      ∀ slot, (kernel.table.process slot).isLive = true →
        ¬SameStack pid (kernel.table.process slot).pid →
        top.toNat + 4 ≤ (kernel.table.process slot).stackBase.toNat ∨
          (kernel.table.process slot).stackTop.toNat ≤ top.toNat := by
  refine ⟨?_, ?_, ?_⟩
  · intro slot live
    exact (reached.ownStack live).inside
  · intro slot other differ live liveToo
    refine ⟨reached.pid_ne differ live liveToo, ?_⟩
    exact (reached.ownStack live).apart (reached.ownStack liveToo)
  · intro name entry priority pid after effects top spawned told
    have word : top = stackTopOf pid - 4 := by
      rcases spawn_tells kernel name entry priority _ _ _ spawned _ told _ rfl with
        masks | unmasks | ⟨found, same, wrote⟩
      · cases masks
      · cases unmasks
      · rw [Except.ok.inj same]
        exact Event.prepareStack.inj wrote
    have reach := return_address_inside pid
    have extent := toNat_stackTopOf pid
    have size : Layout.stackSize.toNat = 4096 := rfl
    subst word
    refine ⟨by omega, by omega, ?_⟩
    intro slot live differ
    have own := reached.ownStack live
    rw [own.1, own.2]
    rcases stack_apart differ with below | above
    · left
      omega
    · right
      omega

/-- The idle process and the process that is created next. -/
theorem Reached.stacks_apart_of_two :
    ∃ (kernel : Kernel) (slot other : Slot), kernel.Reached ∧ slot ≠ other ∧
      (kernel.table.process slot).isLive = true ∧ (kernel.table.process other).isLive = true ∧
      (kernel.table.process slot).StacksApart (kernel.table.process other) := by
  rcases rested_with_16000 {} with ⟨started, plan, kernel, root, home, begun, run, idle, -, rested⟩
  rcases Custody.spawned_after_laps rested 0 (by decide) "p" 0x108000 1 0 with
    ⟨final, away, calls, differ, homeLive, awayLive, homePid, awayPid⟩
  have begins : Custody.Call.start.act.Yields (Custody.ofKernel started) ()
      (Custody.ofKernel kernel) := Custody.step_of_yields run
  have reachedKernel : (Custody.ofKernel kernel).kernel.Reached := .served (.begun begun) begins
  have reached : final.Reached := reachedKernel.run calls
  rcases reached.stacks_apart with ⟨-, apart, -⟩
  refine ⟨final, away, home, reached, differ, awayLive, homeLive, ?_⟩
  apply (apart away home differ awayLive homeLive).2
  have second : (final.table.process away).pid.word = 2 := UInt32.toNat_inj.mp awayPid
  rw [SameStack, second, homePid, idle]
  decide

/-- After 1023 processes have come and gone, the next one gets the stack of the idle process. -/
theorem Reached.stacks_shared_after_laps :
    ∃ (started : Kernel) (final : Custody) (slot other : Slot),
      (Kernel.init ⟨640, 15360⟩ 0x100000 {}).Yields (.new true) (.ok ()) started ∧
      ((.start :: ((List.replicate 1023 (Custody.lap "p" 0x108000 1 0)).flatten ++
        [.spawn "p" 0x108000 1]) : List Custody.Call).forM Custody.Call.act).Yields
          (Custody.ofKernel started) () final ∧
      slot ≠ other ∧ (final.kernel.table.process slot).isLive = true ∧
      (final.kernel.table.process other).isLive = true ∧
      ¬(final.kernel.table.process slot).StacksApart (final.kernel.table.process other) := by
  rcases rested_with_16000 {} with ⟨started, plan, kernel, root, home, begun, run, idle, -, rested⟩
  rcases Custody.spawned_after_laps rested 1023 (by decide) "p" 0x108000 1 0 with
    ⟨final, away, laps, differ, homeLive, awayLive, homePid, awayPid⟩
  have calls : ((.start :: ((List.replicate 1023 (Custody.lap "p" 0x108000 1 0)).flatten ++
      [.spawn "p" 0x108000 1]) : List Custody.Call).forM Custody.Call.act).Yields
        (Custody.ofKernel started) () (Custody.ofKernel final) :=
    Operation.yields_bind.mpr ⟨(), _, Custody.step_of_yields run, laps⟩
  have reachedStarted : (Custody.ofKernel started).kernel.Reached := .begun begun
  have reached : final.Reached := reachedStarted.run calls
  refine ⟨started, _, away, home, begun, calls, differ, awayLive, homeLive, ?_⟩
  apply (reached.ownStack awayLive).shared (reached.ownStack homeLive)
  have last : (final.table.process away).pid.word = 1025 := UInt32.toNat_inj.mp awayPid
  rw [SameStack, last, homePid, idle]
  decide

end Stacks

end Kernel

end KernelCore
