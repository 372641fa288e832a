import KernelCore.Proofs.Scheduler.States

/-!
# Where processes have their stacks

A process has its stack at a place that its id determines, and no two live processes have the same
id. The places lie in the area set aside for stacks; two of them are the same if the ids differ by
a multiple of the number of stacks, and have nothing in common otherwise.
-/

namespace KernelCore

open ProcessTable

namespace ProcessRecord

/-- The process has the stack that goes with its id. -/
def OwnStack (process : ProcessRecord) : Prop :=
  process.stackBase = stackBaseOf process.pid ∧ process.stackTop = stackTopOf process.pid

/-- Two ids are those of the same stack. -/
def SameStack (pid other : Pid) : Prop :=
  pid.word % Layout.stackSlots = other.word % Layout.stackSlots

section Regions

variable {pid other : Pid}

theorem toNat_stackBaseOf (pid : Pid) :
    (stackBaseOf pid).toNat = Layout.processStacksStart.toNat +
      pid.word.toNat % Layout.stackSlots.toNat * Layout.stackSize.toNat := by
  have slots : Layout.stackSlots.toNat = 1024 := rfl
  have size : Layout.stackSize.toNat = 4096 := rfl
  have first : Layout.processStacksStart.toNat = 4194304 := rfl
  have below := Nat.mod_lt pid.word.toNat (show 0 < 1024 by decide)
  simp only [stackBaseOf, UInt32.toNat_add, UInt32.toNat_mul, UInt32.toNat_mod, slots, size, first]
  omega

theorem toNat_stackTopOf (pid : Pid) :
    (stackTopOf pid).toNat = (stackBaseOf pid).toNat + Layout.stackSize.toNat := by
  have slots : Layout.stackSlots.toNat = 1024 := rfl
  have size : Layout.stackSize.toNat = 4096 := rfl
  have first : Layout.processStacksStart.toNat = 4194304 := rfl
  have below := Nat.mod_lt pid.word.toNat (show 0 < 1024 by decide)
  rw [stackTopOf, UInt32.toNat_add, toNat_stackBaseOf, slots, size, first]
  omega

/-- Each stack lies in the area set aside for stacks. -/
theorem stack_inside (pid : Pid) :
    Layout.processStacksStart.toNat ≤ (stackBaseOf pid).toNat ∧
      (stackTopOf pid).toNat ≤ Layout.processStacksEnd.toNat := by
  have slots : Layout.stackSlots.toNat = 1024 := rfl
  have size : Layout.stackSize.toNat = 4096 := rfl
  have first : Layout.processStacksStart.toNat = 4194304 := rfl
  have past : Layout.processStacksEnd.toNat = 8388608 := rfl
  have below := Nat.mod_lt pid.word.toNat (show 0 < 1024 by decide)
  rw [toNat_stackTopOf, toNat_stackBaseOf, slots, size, first, past]
  omega

/-- Different stacks have nothing in common. -/
theorem stack_apart (differ : ¬SameStack pid other) :
    (stackTopOf pid).toNat ≤ (stackBaseOf other).toNat ∨
      (stackTopOf other).toNat ≤ (stackBaseOf pid).toNat := by
  have slots : Layout.stackSlots.toNat = 1024 := rfl
  have size : Layout.stackSize.toNat = 4096 := rfl
  rw [SameStack, ← UInt32.toNat_inj, UInt32.toNat_mod, UInt32.toNat_mod, slots] at differ
  simp only [toNat_stackTopOf, toNat_stackBaseOf, slots, size]
  omega

theorem stackBaseOf_eq (same : SameStack pid other) : stackBaseOf pid = stackBaseOf other := by
  rw [stackBaseOf, stackBaseOf, same]

end Regions

end ProcessRecord

namespace Standing

/-- Who has the processor is live, and who is live has the stack that goes with its id. -/
structure Stacked (standing : Standing) : Prop where
  live : standing.current = true → standing.process.isLive = true
  own : standing.process.isLive = true → standing.process.OwnStack

end Standing

theorem Move.stacked {wakeful : Pid → Prop} {start final : Standing}
    (move : Move wakeful start final) (stacked : start.Stacked) : final.Stacked := by
  rcases stacked with ⟨live, own⟩
  cases move with
  | clear => exact ⟨by simp, by simp [ProcessRecord.vacant, ProcessRecord.isLive]⟩
  | create vacant pid name entry priority timeSlice resources =>
      exact ⟨by simp, fun _ => ⟨rfl, rfl⟩⟩
  | relink next => exact ⟨live, own⟩
  | save context => exact ⟨live, own⟩
  | charge totalTicks timeSlice => exact ⟨live, own⟩
  | @demote now current process =>
      by_cases wasRunning : process.state = .running
      · have wasLive : process.isLive = true := by simp [ProcessRecord.isLive, wasRunning]
        simp only [ProcessRecord.demote, wasRunning, if_true]
        exact ⟨by simp [ProcessRecord.isLive], fun _ => own wasLive⟩
      · simp only [ProcessRecord.demote, wasRunning, if_false]
        exact ⟨live, own⟩
  | lose stopped => exact ⟨by simp, own⟩
  | gain ready timeSlice =>
      exact ⟨by simp [ProcessRecord.isLive], fun _ => own (by simp [ProcessRecord.isLive, ready])⟩
  | block sleepy inFuture => exact ⟨by simp [ProcessRecord.isLive], fun _ => own (live rfl)⟩
  | close => exact ⟨by simp, by simp [ProcessTable.close, ProcessRecord.isLive]⟩
  | wait onward early => exact ⟨live, own⟩
  | wake onward due =>
      have wasLive := ProcessRecord.state_of_isDue due
      exact ⟨by simp [ProcessRecord.wake, ProcessRecord.isLive],
        fun _ => own (by simp [ProcessRecord.isLive, wasLive])⟩

namespace ProcessTable

/-- No two live processes have the same id. -/
def Distinct (table : ProcessTable) : Prop :=
  ∀ slot other pid resources provided, table.occupant slot = some (pid, resources) →
    table.occupant other = some (pid, provided) → slot = other

theorem Population.distinct {before after : ProcessTable} (population : Population before after)
    (distinct : before.Distinct) : after.Distinct := by
  intro slot other pid resources provided here there
  cases population with
  | steady same queue =>
      rw [same] at here there
      exact distinct slot other pid resources provided here there
  | @entered _ place entrant given entered =>
      -- The entrant's id is nobody else's.
      have alone : ∀ {place' resources}, place' ≠ place →
          after.occupant place' = some (entrant, resources) → False := by
        intro place' resources elsewhere occupied
        rw [entered.others place' elsewhere] at occupied
        exact entered.unused place' resources occupied
      by_cases first : slot = place
      · by_cases second : other = place
        · rw [first, second]
        · rw [first, entered.here, Option.some.injEq, Prod.mk.injEq] at here
          exact (alone second (here.1 ▸ there)).elim
      · by_cases second : other = place
        · rw [second, entered.here, Option.some.injEq, Prod.mk.injEq] at there
          exact (alone first (there.1 ▸ here)).elim
        · rw [entered.others slot first] at here
          rw [entered.others other second] at there
          exact distinct slot other pid resources provided here there
  | @left _ place process left =>
      have elsewhere : ∀ {place' occupant}, after.occupant place' = some occupant →
          before.occupant place' = some occupant := by
        intro place' occupant occupied
        rw [← left.others place']
        · exact occupied
        · rintro rfl
          rw [left.vacant] at occupied
          cases occupied
      exact distinct slot other pid resources provided (elsewhere here) (elsewhere there)
  | cleared timeSlice =>
      rw [occupant_empty] at here
      cases here

end ProcessTable

namespace Dispatcher

open ProcessRecord

/-- All is sound, and live processes have their own stacks and ids of their own. -/
structure Housed (dispatcher : Dispatcher) : Prop extends Sound dispatcher where
  stacked : ∀ slot, (dispatcher.standing slot).Stacked
  distinct : dispatcher.table.Distinct

section Housed

variable {before after dispatcher : Dispatcher} {plan : Option Switch}

theorem housed_empty (timeSlice : UInt32) (scheduler : Scheduler) :
    Housed ⟨.empty timeSlice, scheduler⟩ where
  toSound := sound_empty timeSlice scheduler
  stacked slot := by
    simp only [standing, process_empty]
    exact ⟨by simp [ProcessTable.empty], by simp [ProcessRecord.vacant, ProcessRecord.isLive]⟩
  distinct slot other pid resources provided here := by
    rw [occupant_empty] at here
    cases here

theorem Call.act_housed (call : Call) (housed : before.Housed)
    (run : call.act.Yields before plan after) : after.Housed where
  toSound := call.act_sound housed.toSound run
  stacked := by
    have spares : ∀ milliseconds, call = .sleep milliseconds →
        before.Spares (fun _ => False) milliseconds :=
      fun _ _ _ _ nobody => nobody.elim
    exact (call.act_evolves (fun _ => housed.live) spares run).keeps Move.stacked housed.stacked
  distinct := (call.act_population housed.currentLive run).distinct housed.distinct

theorem Housed.ownStack (housed : dispatcher.Housed) {slot : Slot}
    (live : (dispatcher.table.process slot).isLive = true) :
    (dispatcher.table.process slot).OwnStack :=
  (housed.stacked slot).own live

end Housed

end Dispatcher

end KernelCore
