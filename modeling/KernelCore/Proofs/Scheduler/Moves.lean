import KernelCore.Proofs.Scheduler.Decision

/-!
# What processes go through

Where a process stands is what is kept of it, whether it has the processor, and what time it is.
`Move` lists the steps in which that changes, and every operation takes all processes through such
steps: `Dispatcher.Evolves`. So what no step breaks is true of all processes all along, and needs a
case for each step instead of a proof for each operation.

Some processes may be meant never to sleep. The steps are those in which they do not.
-/

namespace KernelCore

open ProcessTable Relation

/-- What is kept of a process, whether it has the processor, and what time it is. -/
structure Standing where
  now : UInt64
  current : Bool
  process : ProcessRecord

/-- The steps in which it changes where a process stands, if the wakeful ones do not sleep. -/
inductive Move (wakeful : Pid → Prop) : Standing → Standing → Prop where
  | clear {now : UInt64} {current : Bool} {process : ProcessRecord} :
      Move wakeful ⟨now, current, process⟩ ⟨now, false, .vacant⟩
  | create {now : UInt64} {process : ProcessRecord} (vacant : process.isLive = false) (pid : Pid)
      (name : String) (entry priority timeSlice : UInt32) (resources : ProcessResources) :
      Move wakeful ⟨now, false, process⟩
        ⟨now, false, .fresh pid name entry priority timeSlice resources⟩
  | relink {now : UInt64} {current : Bool} {process : ProcessRecord} (next : Option Slot) :
      Move wakeful ⟨now, current, process⟩ ⟨now, current, { process with next }⟩
  | save {now : UInt64} {current : Bool} {process : ProcessRecord} (context : Context) :
      Move wakeful ⟨now, current, process⟩ ⟨now, current, { process with context }⟩
  | charge {now : UInt64} {current : Bool} {process : ProcessRecord} (totalTicks : UInt64)
      (timeSlice : UInt32) :
      Move wakeful ⟨now, current, process⟩ ⟨now, current, { process with totalTicks, timeSlice }⟩
  | demote {now : UInt64} {current : Bool} {process : ProcessRecord} :
      Move wakeful ⟨now, current, process⟩ ⟨now, current, process.demote⟩
  | lose {now : UInt64} {process : ProcessRecord} (stopped : process.state ≠ .running) :
      Move wakeful ⟨now, true, process⟩ ⟨now, false, process⟩
  | gain {now : UInt64} {current : Bool} {process : ProcessRecord} (ready : process.state = .ready)
      (timeSlice : UInt32) :
      Move wakeful ⟨now, current, process⟩
        ⟨now, true, { process with state := .running, timeSlice }⟩
  | block {now wakeAt : UInt64} {process : ProcessRecord} (sleepy : ¬wakeful process.pid)
      (later : now < wakeAt) :
      Move wakeful ⟨now, true, process⟩
        ⟨now, true, { process with state := .blocked, wakeAt := some wakeAt }⟩
  | close {now : UInt64} {process : ProcessRecord} :
      Move wakeful ⟨now, true, process⟩ ⟨now, false, close process⟩
  | wait {now next : UInt64} {current : Bool} {process : ProcessRecord}
      (onward : next.toNat = now.toNat + 1) (early : process.isDue next = false) :
      Move wakeful ⟨now, current, process⟩ ⟨next, current, process⟩
  | wake {now next : UInt64} {current : Bool} {process : ProcessRecord}
      (onward : next.toNat = now.toNat + 1) (due : process.isDue next = true) :
      Move wakeful ⟨now, current, process⟩ ⟨next, current, process.wake⟩

theorem ProcessRecord.demote_not_running (process : ProcessRecord) :
    process.demote.state ≠ .running := by
  by_cases running : process.state = .running
  · simp [ProcessRecord.demote, running]
  · simp [ProcessRecord.demote, running]

namespace Dispatcher

/-- Where the process in a slot stands. -/
def standing (dispatcher : Dispatcher) (slot : Slot) : Standing where
  now := dispatcher.scheduler.ticks
  current := dispatcher.table.current == some slot
  process := dispatcher.table.process slot

/-- All processes have gone through steps only. -/
def Evolves (wakeful : Pid → Prop) (before after : Dispatcher) : Prop :=
  ∀ slot, ReflTransGen (Move wakeful) (before.standing slot) (after.standing slot)

section Steps

variable {wakeful : Pid → Prop} {before between after : Dispatcher} {plan : Option Switch}
  {slot : Slot} {table : ProcessTable}

theorem Evolves.refl (wakeful : Pid → Prop) (dispatcher : Dispatcher) :
    Evolves wakeful dispatcher dispatcher :=
  fun _ => .refl

theorem Evolves.trans (first : Evolves wakeful before between)
    (second : Evolves wakeful between after) : Evolves wakeful before after :=
  fun slot => (first slot).trans (second slot)

/-- What no step breaks stays true of all processes. -/
theorem Evolves.keeps {Holds : Standing → Prop} (evolves : Evolves wakeful before after)
    (step : ∀ {start final}, Move wakeful start final → Holds start → Holds final)
    (holds : ∀ slot, Holds (before.standing slot)) (slot : Slot) : Holds (after.standing slot) := by
  have path := evolves slot
  generalize after.standing slot = final at path
  induction path with
  | refl => exact holds slot
  | tail _ move ih => exact step move ih

theorem evolves_update {change : ProcessRecord → ProcessRecord}
    (move : Move wakeful (before.standing slot)
      { before.standing slot with process := change (before.table.process slot) }) :
    Evolves wakeful before { before with table := before.table.update slot change } := by
  intro other
  by_cases here : slot = other
  · subst here
    apply ReflTransGen.single
    simpa [standing, process_update] using move
  · have same : ({ before with table := before.table.update slot change } : Dispatcher).standing
        other = before.standing other := by
      simp [standing, process_update, here]
    rw [same]

theorem evolves_rethreaded (rethreaded : Rethreaded before.table table) :
    Evolves wakeful before { before with table } := by
  intro slot
  rcases rethreaded.process slot with ⟨next, same⟩
  apply ReflTransGen.single
  simp only [standing, same, rethreaded.current]
  exact .relink next

theorem evolves_grant (ready : (before.table.process slot).state = .ready)
    (notCurrent : before.table.current ≠ some slot) (timeSlice : UInt32) :
    Evolves wakeful before { before with table := before.table.grant slot timeSlice } := by
  intro other
  by_cases here : slot = other
  · subst here
    apply ReflTransGen.single
    simp only [standing, process_grant_self notCurrent]
    simpa [grant] using Move.gain ready timeSlice
  · have current : (before.table.grant slot timeSlice).current ≠ some other := by
      simpa [grant] using here
    simp only [standing, process_grant_of_ne here, beq_false_of_ne current]
    by_cases previous : before.table.current = some other
    · simp only [previous, beq_self_eq_true, if_true]
      exact .tail (.single .demote) (.lose (ProcessRecord.demote_not_running _))
    · simp only [previous, beq_false_of_ne previous, if_false]
      exact .refl

theorem Decision.evolves (decision : Decision before plan after) :
    Evolves wakeful before after := by
  cases decision with
  | nobody noneChosen => exact .refl wakeful before
  | again chosen isCurrent =>
      refine evolves_update ?_
      simp only [standing, isCurrent, beq_self_eq_true]
      exact .gain (ready_of_select chosen) _
  | other chosen notCurrent incoming =>
      exact evolves_grant (ready_of_select chosen) notCurrent _

theorem schedule_evolves (run : schedule.Yields before plan after) :
    Evolves wakeful before after :=
  (decision_of_schedule run).evolves

theorem evolves_demote (before : Dispatcher) (slot : Slot) :
    Evolves wakeful before
      { before with table := before.table.update slot ProcessRecord.demote } :=
  evolves_update .demote

theorem yield_evolves (run : Dispatcher.yield.Yields before plan after) :
    Evolves wakeful before after := by
  cases current : before.table.current with
  | none =>
      simp [Dispatcher.yield, and_assoc, current] at run
      exact schedule_evolves run
  | some slot =>
      simp [Dispatcher.yield, and_assoc, current] at run
      exact (evolves_demote before slot).trans (schedule_evolves run)

/-- Nobody who is wakeful is put to sleep for a tick or more. -/
def Spares (wakeful : Pid → Prop) (dispatcher : Dispatcher) (milliseconds : UInt32) : Prop :=
  ∀ pid, dispatcher.table.currentPid = some pid → wakeful pid →
    dispatcher.scheduler.ticksOfMilliseconds milliseconds = 0

theorem sleep_evolves {milliseconds : UInt32} (spares : before.Spares wakeful milliseconds)
    (run : (Dispatcher.sleep milliseconds).Yields before plan after) :
    Evolves wakeful before after := by
  by_cases short : before.scheduler.ticksOfMilliseconds milliseconds = 0
  · simp [Dispatcher.sleep, and_assoc, short] at run
    exact yield_evolves run
  · cases current : before.table.current with
    | none =>
        simp [Dispatcher.sleep, and_assoc, short, current] at run
        rcases run with ⟨-, rfl, rfl⟩
        exact .refl wakeful _
    | some slot =>
        simp [Dispatcher.sleep, and_assoc, short, current] at run
        rcases run with ⟨wakeAt, sum, run⟩
        have sleepy : ¬wakeful (before.table.process slot).pid := by
          intro isWakeful
          refine short (spares _ ?_ isWakeful)
          simp [currentPid, currentProcess, current]
        have later : before.scheduler.ticks < wakeAt := by
          rw [Checked.add64_eq_ok_iff] at sum
          rw [UInt64.lt_iff_toNat_lt, sum]
          have positive := mt UInt64.toNat_inj.mp short
          exact Nat.lt_add_of_pos_right (Nat.pos_of_ne_zero positive)
        have blocked : Evolves wakeful before { before with
            table := before.table.update slot fun process =>
              { process with state := .blocked, wakeAt := some wakeAt } } := by
          refine evolves_update ?_
          simp only [standing, current, beq_self_eq_true]
          exact .block sleepy later
        exact blocked.trans (schedule_evolves run)

theorem charge_evolves {last : Bool} (run : (charge slot).Yields before last after) :
    Evolves wakeful before after := by
  by_cases more : 1 < (before.table.process slot).timeSlice
  · simp [charge, and_assoc, more] at run
    rcases run with ⟨totalTicks, -, rfl, -⟩
    exact evolves_update (.charge totalTicks _)
  · simp [charge, and_assoc, more] at run
    rcases run with ⟨totalTicks, -, rfl, -⟩
    exact evolves_update (.charge totalTicks _)

theorem process_wakeSleepers {now : UInt64} {value : Unit} {slept : ProcessTable}
    (run : (wakeSleepers now).Yields slept value table) :
    table.current = slept.current ∧ ∀ slot, table.process slot =
      if (slept.process slot).isDue now then (slept.process slot).wake else slept.process slot := by
  simp [wakeSleepers, and_assoc] at run
  subst run
  refine ⟨rfl, fun slot => ?_⟩
  simp only [process, Fin.getElem_fin, Vector.getElem_map]
  rfl

/-- The clock goes on, and those whose sleep is over wake up. -/
theorem wakeSleepers_evolves {ticks : UInt64} {value : Unit}
    (onward : ticks.toNat = before.scheduler.ticks.toNat + 1)
    (run : (wakeSleepers ticks).Yields before.table value table) :
    Evolves wakeful before ⟨table, { before.scheduler with ticks }⟩ := by
  rcases process_wakeSleepers run with ⟨current, processes⟩
  intro slot
  apply ReflTransGen.single
  simp only [standing, current, processes]
  split
  · rename_i due
    exact .wake onward due
  · rename_i early
    exact .wait onward (Bool.of_not_eq_true early)

theorem tick_evolves (run : Dispatcher.tick.Yields before plan after) :
    Evolves wakeful before after := by
  simp [Dispatcher.tick, and_assoc] at run
  rcases run with ⟨ticks, sum, _, between, waking, run⟩
  rcases yields_onTable.mp waking with ⟨table, woken, rfl⟩
  have awake : Evolves wakeful before ⟨table, { before.scheduler with ticks }⟩ :=
    wakeSleepers_evolves (Checked.add64_eq_ok_iff.mp sum) woken
  cases current : table.current with
  | none =>
      simp [current] at run
      rcases run with ⟨rfl, rfl⟩
      exact awake
  | some slot =>
      simp [current] at run
      rcases run with ⟨charging, rfl⟩ | ⟨charged, charging, run⟩
      · exact awake.trans (charge_evolves charging)
      · exact (awake.trans (charge_evolves charging)).trans
          ((evolves_demote charged slot).trans (schedule_evolves run))

theorem create_evolves {name : String} {entry priority : UInt32} {resources : ProcessResources}
    {reply : Except ProcessError Pid}
    (live : ∀ slot, before.table.current = some slot → (before.table.process slot).isLive = true)
    (run : (create name entry priority resources).Yields before.table reply table) :
    Evolves wakeful before { before with table } := by
  rcases create_records run with ⟨-, -, rfl⟩ | ⟨slot, pid, next, -, vacant, -, rethreaded⟩
  · exact .refl wakeful before
  · have notCurrent : before.table.current ≠ some slot := by
      intro isCurrent
      exact Bool.false_ne_true (vacant.symm.trans (live slot isCurrent))
    let numbered : Dispatcher := { before with table := { before.table with nextPid := next } }
    have entered : Evolves wakeful numbered { numbered with
        table := numbered.table.update slot fun _ =>
          .fresh pid name entry priority before.table.timeSlice resources } := by
      refine evolves_update ?_
      simp only [standing, numbered, beq_false_of_ne notCurrent]
      exact .create vacant pid name entry priority before.table.timeSlice resources
    exact entered.trans (evolves_rethreaded rethreaded)

theorem exit_evolves {code : Int32} {reply : Option ProcessRecord}
    (run : (exit code).Yields before.table reply table) :
    Evolves wakeful before { before with table } := by
  rcases exit_records run with ⟨-, -, rfl⟩ | ⟨slot, between, isCurrent, rethreaded, rfl, -⟩
  · exact .refl wakeful before
  · intro other
    rcases rethreaded.process other with ⟨next, same⟩
    change between.process other = { before.table.process other with next } at same
    have noCurrent : (between.update slot ProcessTable.close).current = none := rethreaded.current
    simp only [standing, process_update, same, noCurrent, isCurrent]
    by_cases here : slot = other
    · subst here
      simp only [beq_self_eq_true, if_true, same]
      exact .tail (.single (.relink next)) .close
    · have elsewhere : (some slot == some other) = false := by simpa using here
      simp only [here, elsewhere, if_false]
      exact .single (.relink next)

theorem evolves_apply (before : Dispatcher) (switch : Switch) (registers : Context) :
    Evolves wakeful before { before with table := (switch.apply registers before.table).2 } := by
  rcases switch with ⟨_ | ⟨pid, slot⟩, incoming, target⟩
  · exact .refl wakeful before
  · exact evolves_update (.save registers)

theorem evolves_empty (before : Dispatcher) (timeSlice : UInt32) :
    Evolves wakeful before { before with table := .empty timeSlice } := by
  intro slot
  apply ReflTransGen.single
  simp only [standing, process_empty]
  exact .clear

end Steps

end Dispatcher

end KernelCore
