import KernelCore.Boot
import KernelCore.Proofs.Kernel.Masking

/-!
# How the kernel is entered

An entry point turns interrupts off if they are on, has the kernel plan a switch under the lock, and
carries the plan out once the lock is free. `Boot.Entrance` tells all that the processor is told of
this, and in which circumstances. An entry needs the lock to be free when it begins, and leaves it
free, so that the next entry can begin.
-/

namespace KernelCore

open Operation

/-- Whether the event belongs to a switch of processes. -/
def Event.switches : Event → Bool
  | .loadDirectory _ | .switchContext _ _ => true
  | _ => false

/-- Whether the event exchanges the registers of processes. -/
def Event.exchanges : Event → Bool
  | .switchContext _ _ => true
  | _ => false

/-- What the processor is told to carry a plan out, given the registers that are loaded in the
end. -/
def Switch.carriedOut (plan : Option Switch) (loaded : Context) : List Event :=
  (plan.map fun switch => switch.events loaded).getD []

section Switches

variable {event : Event} {plan : Option Switch} {loaded : Context}

theorem Switch.switches_of_carriedOut (mem : event ∈ Switch.carriedOut plan loaded) :
    event.switches = true := by
  cases plan with
  | none => cases mem
  | some switch =>
      rcases List.mem_append.mp mem with loads | exchanges
      · rcases List.mem_map.mp (Option.toList_map ▸ loads) with ⟨directory, -, rfl⟩
        rfl
      · rw [List.mem_singleton.mp exchanges]
        rfl

/-- The registers are exchanged once at most. -/
theorem Switch.countP_exchanges_carriedOut (plan : Option Switch) (loaded : Context) :
    (Switch.carriedOut plan loaded).countP Event.exchanges ≤ 1 := by
  rcases plan with _ | ⟨outgoing, incoming, _ | directory⟩
  · exact Nat.zero_le 1
  · exact Nat.le_refl 1
  · exact Nat.le_refl 1

/-- Nothing about interrupts or the lock changes during a switch. -/
theorem Condition.replay_switches {condition : Condition} {events : List Event}
    {entry : Event × Condition} (all : ∀ event ∈ events, event.switches = true)
    (mem : entry ∈ condition.replay events) : entry.2 = condition := by
  induction events with
  | nil => cases mem
  | cons event rest ih =>
      have stays : condition.after event = condition := by
        have isSwitch := all event List.mem_cons_self
        cases event with
        | loadDirectory | switchContext => rfl
        | _ => cases isSwitch
      rw [replay, stays] at mem
      rcases List.mem_cons.mp mem with rfl | later
      · rfl
      · exact ih (fun event mem => all event (List.mem_cons_of_mem _ mem)) later

/-- What is done after the lock was taken and given back is done without it and with interrupts
off. -/
theorem Condition.unlocked_of_switches {enabled locked : Bool} {events : List Event}
    {entry : Event × Condition} (all : ∀ event ∈ events, event.switches = true)
    (mem : entry ∈ Condition.replay ⟨enabled, locked⟩
      (bracket enabled ([.acquireLock, .releaseLock] ++ events)))
    (isSwitch : entry.1.switches = true) : entry.2 = ⟨false, false⟩ := by
  have aside : ∀ {event condition}, entry = (event, condition) → event.switches = false →
      False := by
    rintro event condition rfl never
    rw [never] at isSwitch
    cases isSwitch
  cases enabled with
  | false =>
      rcases List.mem_cons.mp mem with taking | mem
      · exact (aside taking rfl).elim
      · rcases List.mem_cons.mp mem with giving | mem
        · exact (aside giving rfl).elim
        · exact replay_switches all mem
  | true =>
      rcases List.mem_cons.mp mem with masking | mem
      · exact (aside masking rfl).elim
      · rw [List.append_assoc] at mem
        rcases List.mem_cons.mp mem with taking | mem
        · exact (aside taking rfl).elim
        · rcases List.mem_cons.mp mem with giving | mem
          · exact (aside giving rfl).elim
          · change entry ∈ replay _ (events ++ [.enableInterrupts]) at mem
            rw [replay_append, List.mem_append] at mem
            rcases mem with mem | last
            · exact replay_switches all mem
            · exact (aside (List.mem_singleton.mp last) rfl).elim

end Switches

namespace Boot

/-- What an entry leads to if the kernel has made the plan: the flag is what it was and the lock is
free; the lock is taken and given back, and after that the plan is carried out, with interrupts off,
and there is one switch at most. -/
structure Entrance (plan : Option Switch) (before after : Boot) (events : List Event) : Prop where
  restored : Maskable.interrupts after = Maskable.interrupts before
  released : after.locked = false
  bracketed : events = bracket (Maskable.interrupts before)
    ([.acquireLock, .releaseLock] ++ Switch.carriedOut plan after.kernel.cpu.registers)
  unlocked : ∀ locked, ∀ entry ∈ Condition.replay ⟨Maskable.interrupts before, locked⟩ events,
    entry.1.switches = true → entry.2 = ⟨false, false⟩
  once : events.countP Event.exchanges ≤ 1

/-- An entry carries out what the kernel plans, as long as the lock is free when it begins. -/
structure Enters {Value : Type} (entry : Operation Boot Value)
    (planning : Operation Kernel (Option Switch)) : Prop where
  /-- Whatever the entry ends with, it found the lock free, the kernel has made a plan with
  interrupts off, and that is all that the entry has carried out. -/
  entrance : ∀ before value after effects, entry before = .ok ⟨value, after, effects⟩ →
    before.locked = false ∧
    ∃ plan kernel, planning.Yields (Maskable.withInterrupts false before.kernel) plan kernel ∧
      Entrance plan before after (told effects)
  /-- If the kernel makes a plan, only the lock can keep the entry from ending. -/
  ends : ∀ before plan kernel, before.locked = false →
    planning.Yields (Maskable.withInterrupts false before.kernel) plan kernel →
    ∃ value after, entry.Yields before value after
  /-- A lock that is held is not given back while the entry waits for it. -/
  waits : ∀ before, before.locked = true → entry before = .error .heldLock

section Steps

variable {Value Answer : Type} {before after : Boot} {effects : List Effect}

/-- What is done under the lock is what would be done without, once the lock is free. -/
theorem withKernel_apply (action : Operation Kernel Value) (before : Boot) :
    withKernel action before =
      if before.locked then .error .heldLock
      else (action before.kernel).map fun outcome =>
        { value := outcome.value
          state := { kernel := outcome.state }
          effects := .cpu .acquireLock :: (outcome.effects ++ [.cpu .releaseLock]) } := by
  have held : onKernel action { kernel := before.kernel, locked := true } =
      (action before.kernel).map fun outcome =>
        { outcome with state := { kernel := outcome.state, locked := true } } :=
    within_apply _ _ _ _
  rw [withKernel, underLock_apply]
  refine if_congr Iff.rfl rfl ?_
  rw [bind_apply]
  change Except.map _ (do
    let final ← (onKernel action >>= fun value => signal .releaseLock >>= fun _ => pure value)
      { kernel := before.kernel, locked := true }
    return { final with effects := [Effect.cpu .acquireLock] ++ final.effects }) = _
  rw [bind_apply, held]
  cases action before.kernel <;> rfl

theorem withKernel_eq_ok {action : Operation Kernel Value} {value : Value}
    (run : withKernel action before = .ok ⟨value, after, effects⟩) :
    before.locked = false ∧ ∃ kernel inner, action before.kernel = .ok ⟨value, kernel, inner⟩ ∧
      after = { kernel } ∧ told effects = .acquireLock :: (told inner ++ [.releaseLock]) := by
  rw [withKernel_apply] at run
  split at run
  · cases run
  · rename_i free
    cases done : action before.kernel with
    | error fault =>
        rw [done] at run
        cases run
    | ok outcome =>
        rw [done] at run
        cases run
        exact ⟨Bool.of_not_eq_true free, outcome.state, outcome.effects, rfl, rfl,
          told_around _ _ outcome.effects⟩

/-- The lock is free again after anything that was done under it. -/
theorem yields_withKernel {action : Operation Kernel Value} {value : Value} {kernel : Kernel}
    (free : before.locked = false) (run : action.Yields before.kernel value kernel) :
    (withKernel action).Yields before value { kernel } := by
  rcases run with ⟨inner, done⟩
  exact ⟨.cpu .acquireLock :: (inner ++ [.cpu .releaseLock]), by
    rw [withKernel_apply, free, done]
    rfl⟩

theorem perform_eq_ok {plan : Option Switch} {value : Unit}
    (run : perform plan before = .ok ⟨value, after, effects⟩) :
    Maskable.interrupts after = Maskable.interrupts before ∧ after.locked = before.locked ∧
      told effects = Switch.carriedOut plan after.kernel.cpu.registers := by
  cases plan with
  | none =>
      cases run
      exact ⟨rfl, rfl, rfl⟩
  | some switch =>
      change onKernel (Kernel.perform switch) before = _ at run
      rcases within_eq_ok.mp run with ⟨kernel, carried, rfl⟩
      rcases bind_eq_ok.mp carried with ⟨registers, between, early, late, loaded, ended, rfl⟩
      cases loaded
      cases ended
      refine ⟨rfl, rfl, ?_⟩
      rw [told_append, told_cpu]
      rfl

/-- A plan can be carried out at any time. -/
theorem yields_perform (plan : Option Switch) (before : Boot) :
    ∃ after, (perform plan).Yields before () after := by
  cases plan with
  | none => exact ⟨before, yields_pure.mpr ⟨rfl, rfl⟩⟩
  | some switch => exact ⟨_, _, rfl⟩

theorem withInterrupts_false {kernel : Kernel} (masked : kernel.Masked) :
    Maskable.withInterrupts false kernel = kernel := by
  rcases kernel with ⟨⟨interrupts, registers⟩, spaces, heap, dispatcher, idle⟩
  cases masked
  rfl

/-- The flag of the machine is that of its kernel, and the lock does not depend on it. -/
theorem masking_eq (boot : Boot) :
    (if Maskable.interrupts boot then Maskable.withInterrupts false boot else boot) =
      { boot with kernel := Maskable.withInterrupts false boot.kernel } := by
  split
  · rfl
  · rw [withInterrupts_false (Bool.of_not_eq_true ‹_›)]

section Entering

variable {action : Operation Kernel Answer} {plan : Answer → Option Switch}

/-- An entry that has the kernel plan under the lock and then carries the plan out. -/
def entering (action : Operation Kernel Answer) (plan : Answer → Option Switch)
    (value : Answer → Value) : Operation Boot Value :=
  masked do
    let answer ← withKernel action
    perform (plan answer)
    return value answer

theorem entrance_of_entering {value : Answer → Value} {result : Value}
    (quiet : action.Calm Kernel.Masked fun _ => False)
    (run : entering action plan value before = .ok ⟨result, after, effects⟩) :
    before.locked = false ∧
    ∃ made kernel,
      (plan <$> action).Yields (Maskable.withInterrupts false before.kernel) made kernel ∧
        Entrance made before after (told effects) := by
  rcases masked_eq_ok run with ⟨between, inner, worked, rfl, same⟩
  rcases bind_eq_ok.mp worked with ⟨answer, planned, early, rest, asked, carrying, rfl⟩
  rcases bind_eq_ok.mp carrying with ⟨_, carried, late, none_left, performed, ended, rfl⟩
  cases ended
  rw [masking_eq] at asked
  rcases withKernel_eq_ok asked with ⟨free, kernel, inside, planning, rfl, toldEarly⟩
  rcases perform_eq_ok performed with ⟨flag, lock, toldLate⟩
  rcases quiet _ answer kernel inside planning rfl with ⟨stays, nothing⟩
  have events : told effects = bracket (Maskable.interrupts before)
      ([.acquireLock, .releaseLock] ++ Switch.carriedOut (plan answer)
        between.kernel.cpu.registers) := by
    rw [same, List.append_nil, told_append, toldEarly, toldLate, told_eq_nil nothing]
    rfl
  have registers : (if Maskable.interrupts before then Maskable.withInterrupts true between
      else between).kernel.cpu.registers = between.kernel.cpu.registers := by
    split <;> rfl
  refine ⟨free, plan answer, kernel,
    yields_map.mpr ⟨answer, ⟨inside, planning⟩, rfl⟩, ?_, ?_, ?_, ?_, ?_⟩
  · split
    · rename_i enabled
      exact enabled.symm
    · rename_i disabled
      rw [Bool.of_not_eq_true disabled]
      exact flag.trans stays
  · split
    · exact lock
    · exact lock
  · rw [registers]
    exact events
  · intro locked entry mem
    rw [events] at mem
    exact Condition.unlocked_of_switches (fun _ mem => Switch.switches_of_carriedOut mem) mem
  · rw [events]
    have once := Switch.countP_exchanges_carriedOut (plan answer) between.kernel.cpu.registers
    cases Maskable.interrupts before <;>
      simpa [bracket, List.countP_cons, List.countP_append, Event.exchanges] using once

theorem enters_of_entering (quiet : action.Calm Kernel.Masked fun _ => False)
    (value : Answer → Value) : Enters (entering action plan value) (plan <$> action) where
  entrance _ _ _ _ run := entrance_of_entering quiet run
  ends before made kernel free planning := by
    rcases yields_map.mp planning with ⟨answer, asked, -⟩
    rcases yields_perform (plan answer) { kernel } with ⟨carried, performed⟩
    refine ⟨value answer, _, yields_masked.mpr ⟨carried, ?_, rfl⟩⟩
    rw [masking_eq]
    exact yields_bind.mpr ⟨answer, { kernel }, yields_withKernel free asked,
      yields_bind.mpr ⟨(), carried, performed, yields_pure.mpr ⟨rfl, rfl⟩⟩⟩
  waits before held := by
    refine masked_eq_error ?_
    rw [masking_eq, bind_apply, withKernel_apply, if_pos held]
    rfl

end Entering

end Steps

section Entries

variable {planning : Operation Kernel (Option Switch)}

theorem enters_of_switchBy (shielded : planning.Shielded fun _ => False) :
    Enters (switchBy planning) planning := by
  have entry : switchBy planning = entering planning id fun _ => () := by
    rw [switchBy, entering]
    congr
    funext plan
    exact (bind_pure _).symm
  have enters : Enters (entering planning id fun _ => ()) (id <$> planning) :=
    enters_of_entering shielded.calm fun _ => ()
  rwa [← entry, id_map] at enters

/-- Each entry point through which the booted machine gets to the kernel, with what the kernel plans
for it. -/
structure EntriesShielded : Prop where
  start : Enters start Kernel.start
  timerTick : Enters timerTick Kernel.tick
  syscallEntry : ∀ bytesAt raw, Enters (syscallEntry bytesAt raw)
    (SyscallReturn.plan <$> Kernel.dispatchSyscall bytesAt raw)
  exitCurrent : ∀ code, Enters (exitCurrent code) (Kernel.exit code)
  yieldNow : Enters yieldNow Kernel.yield

theorem entriesShielded : EntriesShielded := by
  have nothing : ∀ event : Event, False → event.Plain := fun _ never => never.elim
  refine
    { start := enters_of_switchBy (Kernel.shielded_decision Dispatcher.silent_schedule nothing)
      timerTick := enters_of_switchBy (Kernel.shielded_decision Dispatcher.silent_tick nothing)
      syscallEntry := fun bytesAt raw =>
        enters_of_entering (Kernel.calm_dispatchSyscall bytesAt raw nothing) SyscallReturn.value
      exitCurrent := fun code => enters_of_switchBy (Kernel.shielded_exit code nothing)
      yieldNow := enters_of_switchBy (Kernel.shielded_decision Dispatcher.silent_yield nothing) }

end Entries

end Boot

/-- The operations that change the kernel work with interrupts off and leave the flag as they found
it, and so do the entry points of the booted machine, which carry out what the kernel plans once its
lock is free. -/
theorem interrupts_masked : Kernel.OperationsShielded ∧ Boot.EntriesShielded :=
  ⟨Kernel.operationsShielded, Boot.entriesShielded⟩

/-- Without processes nothing is switched to. -/
example : (Boot.yieldNow { kernel := .new true }).map (fun outcome => told outcome.effects) =
    .ok [.disableInterrupts, .acquireLock, .releaseLock, .enableInterrupts] := by
  rfl

end KernelCore
