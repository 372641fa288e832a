import KernelCore.Proofs.Scheduler.Line

/-!
# Scheduling without slots

A `Lineup` is what is left of the processes and the scheduler without slots: the processes on the
queue, first to last and without links, and the id of the one that has the processor. All that the
scheduler does can be done with a lineup. What the process table does in its slots comes to the
same, as long as the queue holds the live processes and no two of them have the same id.
-/

namespace KernelCore

open ProcessTable

/-- A decision to give the processor to another process, without slots. -/
structure Handoff where
  outgoing : Option Pid
  incoming : Pid
  directory : Option Directory
  deriving DecidableEq, Repr

def Switch.handoff (switch : Switch) : Handoff where
  outgoing := switch.outgoing.map Prod.fst
  incoming := switch.incoming.1
  directory := switch.directory

/-- The processes and the scheduler, without slots. -/
structure Lineup where
  /-- The processes on the queue, first to last. -/
  line : List ProcessRecord
  /-- The process that has the processor. -/
  current : Option Pid
  nextPid : UInt32
  timeSlice : UInt32
  scheduler : Scheduler
  deriving DecidableEq

def Dispatcher.lineup (dispatcher : Dispatcher) : Lineup where
  line := dispatcher.table.line dispatcher.table.queue
  current := dispatcher.table.currentPid
  nextPid := dispatcher.table.nextPid
  timeSlice := dispatcher.table.timeSlice
  scheduler := dispatcher.scheduler

namespace Lineup

def empty (timeSlice : UInt32) (scheduler : Scheduler) : Lineup :=
  { line := [], current := none, nextPid := 1, timeSlice, scheduler }

def find? (lineup : Lineup) (pid : Pid) : Option ProcessRecord :=
  lineup.line.find? fun process => process.pid == pid

def change (lineup : Lineup) (pid : Pid) (how : ProcessRecord → ProcessRecord) : Lineup :=
  { lineup with
    line := lineup.line.map fun process => if process.pid = pid then how process else process }

def relieve (lineup : Lineup) : Lineup :=
  match lineup.current with
  | some pid => lineup.change pid ProcessRecord.demote
  | none => lineup

/-- The better of the best process so far and another one further down the queue. -/
def better (best : Option ProcessRecord) (candidate : ProcessRecord) : Option ProcessRecord :=
  if candidate.state ≠ .ready then
    best
  else
    match best with
    | none => some candidate
    | some previous => if candidate.priority < previous.priority then best else some candidate

def select (lineup : Lineup) : Option ProcessRecord :=
  lineup.line.foldl better none

def grant (lineup : Lineup) (pid : Pid) (timeSlice : UInt32) : Lineup :=
  { lineup.relieve.change pid fun process => { process with state := .running, timeSlice } with
    current := some pid }

def schedule (lineup : Lineup) : Option Handoff × Lineup :=
  match lineup.select with
  | none => (none, lineup)
  | some process =>
      if lineup.current = some process.pid then
        (none, lineup.change process.pid fun process => { process with state := .running })
      else
        (some ⟨lineup.current, process.pid, process.resources.directory⟩,
          lineup.grant process.pid lineup.scheduler.config.timeSliceTicks)

def yield (lineup : Lineup) : Option Handoff × Lineup :=
  lineup.relieve.schedule

def sleep (milliseconds : UInt32) (lineup : Lineup) : Except Fault (Option Handoff × Lineup) :=
  let duration := lineup.scheduler.ticksOfMilliseconds milliseconds
  if duration = 0 then
    return lineup.yield
  else do
    let wakeAt ← Checked.add64 lineup.scheduler.ticks duration
    match lineup.current with
    | none => return (none, lineup)
    | some pid => return (lineup.change pid (·.doze wakeAt)).schedule

def roused (lineup : Lineup) (ticks : UInt64) : Lineup :=
  { lineup with
    line := lineup.line.map (·.rouse ticks)
    scheduler := { lineup.scheduler with ticks } }

def charge (lineup : Lineup) : Except Fault (Option Handoff × Lineup) :=
  match lineup.current.bind lineup.find? with
  | none => return (none, lineup)
  | some process => do
      let totalTicks ← Checked.add64 process.totalTicks 1
      if 1 < process.timeSlice then
        return (none, lineup.change process.pid fun process =>
          { process with totalTicks, timeSlice := process.timeSlice - 1 })
      else
        let timeSlice := lineup.scheduler.config.timeSliceTicks
        return (lineup.change process.pid fun process =>
          ProcessRecord.demote { process with totalTicks, timeSlice }).schedule

def tick (lineup : Lineup) : Except Fault (Option Handoff × Lineup) := do
  let ticks ← Checked.add64 lineup.scheduler.ticks 1
  (lineup.roused ticks).charge

/-- The first id from `candidate` on that nobody has, and the id after it, if it is among the first
`tries`. -/
def searchPid (lineup : Lineup) : (tries : Nat) → (candidate : UInt32) → Option (Pid × UInt32)
  | 0, _ => none
  | tries + 1, candidate =>
      if lineup.find? ⟨candidate⟩ = none then
        some (⟨candidate⟩, successor candidate)
      else
        lineup.searchPid tries (successor candidate)

def create (name : String) (entry priority : UInt32) (resources : ProcessResources)
    (lineup : Lineup) : Except Fault (Except ProcessError Pid × Lineup) :=
  if lineup.line.length = Layout.maxProcesses then
    return (.error .tableFull, lineup)
  else
    match lineup.searchPid (Layout.maxProcesses + 1) lineup.nextPid with
    | none => .error .endlessSearch
    | some (pid, nextPid) =>
        let process := .fresh pid name entry priority lineup.timeSlice resources
        return (.ok pid, { lineup with line := lineup.line ++ [process], nextPid })

def exit (lineup : Lineup) : Option ProcessRecord × Lineup :=
  match lineup.current.bind lineup.find? with
  | none => (none, lineup)
  | some process =>
      (some (close process),
        { lineup with
          line := lineup.line.filter fun other => other.pid ≠ process.pid
          current := none })

end Lineup

namespace Dispatcher

section Lineup

variable {before after dispatcher : Dispatcher} {slots : List Slot} {slot : Slot}
  {change : ProcessRecord → ProcessRecord} {plan : Option Switch}

theorem lineup_eq (dispatcher : Dispatcher) (lined : dispatcher.table.Lined slots) :
    dispatcher.lineup =
      { line := dispatcher.table.line slots
        current := dispatcher.table.currentPid
        nextPid := dispatcher.table.nextPid
        timeSlice := dispatcher.table.timeSlice
        scheduler := dispatcher.scheduler } := by
  rw [lineup, lined.queue_eq]

theorem lineup_update (dispatcher : Dispatcher) (lined : dispatcher.table.Lined slots)
    (mem : slot ∈ slots) (inner : ProcessRecord.Inner change) :
    ({ dispatcher with table := dispatcher.table.update slot change } : Dispatcher).lineup =
      dispatcher.lineup.change (dispatcher.table.process slot).pid change := by
  have steady := lined.steady_update mem inner
  have current := currentPid_congr lined.current steady.current fun place _ =>
    steady.occupant place
  rw [lineup_eq _ (lined.update mem inner), lineup_eq _ lined, Lineup.change, current,
    lined.line_update mem inner]
  rfl

theorem lineup_relieve (lined : dispatcher.table.Lined slots) :
    ({ dispatcher with table := dispatcher.table.relieve } : Dispatcher).lineup =
      dispatcher.lineup.relieve := by
  have known : dispatcher.lineup.current = dispatcher.table.currentPid := rfl
  rw [Lineup.relieve, known]
  cases isCurrent : dispatcher.table.current with
  | none =>
      rw [ProcessTable.relieve, isCurrent, currentPid_of_none isCurrent]
  | some slot =>
      rw [ProcessTable.relieve, isCurrent, currentPid_of_current isCurrent]
      exact lineup_update _ lined (lined.mem_of_current isCurrent) ProcessRecord.inner_demote

theorem lineup_grant (lined : dispatcher.table.Lined slots) (mem : slot ∈ slots)
    (timeSlice : UInt32) :
    ({ dispatcher with table := dispatcher.table.grant slot timeSlice } : Dispatcher).lineup =
      dispatcher.lineup.grant (dispatcher.table.process slot).pid timeSlice := by
  have inner := ProcessRecord.inner_grant timeSlice
  have relieved := lined.relieve
  have granted := relieved.update mem inner
  have changed :=
    lineup_update { dispatcher with table := dispatcher.table.relieve } relieved mem inner
  rw [lineup_relieve lined, pid_relieve] at changed
  rw [Lineup.grant, ← changed, lineup_eq _ (lined.grant mem timeSlice), lineup_eq _ granted]
  have here : ((dispatcher.table.grant slot timeSlice).process slot).pid =
      (dispatcher.table.process slot).pid := by
    change ((dispatcher.table.relieve.update slot fun process =>
      { process with state := .running, timeSlice }).process slot).pid = _
    rw [process_update, if_pos rfl, pid_relieve]
  have isCurrent : (dispatcher.table.grant slot timeSlice).current = some slot := rfl
  rw [currentPid_of_current isCurrent, here]
  rfl

theorem bare_better (table : ProcessTable) (best : Option Slot) (slot : Slot) :
    (table.better best slot).map (fun slot => (table.process slot).bare) =
      Lineup.better (best.map fun slot => (table.process slot).bare)
        (table.process slot).bare := by
  by_cases ready : (table.process slot).state = .ready
  · cases best with
    | none => simp [better, Lineup.better, ProcessRecord.bare, ready]
    | some previous =>
        by_cases lower : (table.process slot).priority < (table.process previous).priority
        · simp [better, Lineup.better, ProcessRecord.bare, ready, lower]
        · simp [better, Lineup.better, ProcessRecord.bare, ready, lower]
  · simp [better, Lineup.better, ProcessRecord.bare, ready]

theorem foldl_better (table : ProcessTable) (slots : List Slot) (best : Option Slot) :
    (slots.foldl table.better best).map (fun slot => (table.process slot).bare) =
      (table.line slots).foldl Lineup.better
        (best.map fun slot => (table.process slot).bare) := by
  induction slots generalizing best with
  | nil => rfl
  | cons slot rest ih =>
      rw [List.foldl_cons, ih, bare_better]
      rfl

theorem select_lineup (lined : dispatcher.table.Lined slots) {chosen : Option Slot}
    (selected : dispatcher.table.select = .ok chosen) :
    dispatcher.lineup.select =
      chosen.map fun slot => (dispatcher.table.process slot).bare := by
  rw [ProcessTable.select, lined.toLinked.wholeQueue] at selected
  cases selected
  rw [foldl_better, Lineup.select, lineup_eq _ lined]
  rfl

/-- A plan names those who lose and get the processor, and the address space of the latter. -/
theorem handoff_of_planned {switch : Switch} (lined : before.table.Lined slots) (mem : slot ∈ slots)
    (planned : Planned before after (some switch)) (place : switch.incoming.2 = slot) :
    switch.handoff = ⟨before.table.currentPid, (before.table.process slot).pid,
      (before.table.process slot).resources.directory⟩ := by
  rcases planned.goes switch rfl with ⟨outgoing, ⟨resources, here, directory⟩, -, -⟩
  rw [place, lined.occupant mem, Option.some.injEq, Prod.mk.injEq] at here
  rcases here with ⟨pid, rfl⟩
  have left : switch.outgoing.map Prod.fst = before.table.currentPid := by
    rw [outgoing]
    cases isCurrent : before.table.current with
    | none =>
        rw [currentPid_of_none isCurrent]
        rfl
    | some previous =>
        rw [currentPid_of_current isCurrent, Option.bind_some,
          lined.occupant (lined.mem_of_current isCurrent)]
        rfl
  rw [Switch.handoff, left, pid, directory]

/-- A decision comes to the same without slots. -/
theorem schedule_lineup (lined : before.table.Lined slots)
    (run : schedule.Yields before plan after) :
    before.lineup.schedule = (plan.map Switch.handoff, after.lineup) := by
  have planned := schedule_planned lined.current run
  cases decision_of_schedule run with
  | nobody noneChosen => rw [Lineup.schedule, select_lineup lined noneChosen]; rfl
  | @again slot chosen isCurrent =>
      have mem := lined.mem_of_current isCurrent
      have known : before.lineup.current = some (before.table.process slot).pid :=
        currentPid_of_current isCurrent
      rw [Lineup.schedule, select_lineup lined chosen,
        lineup_update _ lined mem ProcessRecord.inner_run]
      exact if_pos known
  | @other slot switch chosen notCurrent incoming =>
      have ready := ready_of_select chosen
      have live : (before.table.process slot).isLive = true := by
        simp [ProcessRecord.isLive, ready]
      have mem := lined.mem live
      have notKnown : before.lineup.current ≠ some (before.table.process slot).pid := by
        intro isCurrent
        exact notCurrent ((currentPid_eq_some_iff lined.current lined.own
          (lined.occupant mem)).mp isCurrent)
      have handoff := handoff_of_planned lined mem planned (congrArg Prod.snd incoming)
      rw [Lineup.schedule, select_lineup lined chosen, lineup_grant lined mem, Option.map_some,
        Option.map_some, handoff]
      exact if_neg notKnown

theorem yield_lineup (lined : before.table.Lined slots)
    (run : Dispatcher.yield.Yields before plan after) :
    before.lineup.yield = (plan.map Switch.handoff, after.lineup) := by
  rw [Lineup.yield, ← lineup_relieve lined]
  exact schedule_lineup lined.relieve (yields_yield_iff.mp run)

theorem sleep_lineup {milliseconds : UInt32} (lined : before.table.Lined slots)
    (run : (Dispatcher.sleep milliseconds).Yields before plan after) :
    before.lineup.sleep milliseconds = .ok (plan.map Switch.handoff, after.lineup) := by
  have clock : before.lineup.scheduler = before.scheduler := rfl
  rw [Lineup.sleep, clock]
  have slept := yields_sleep_iff.mp run
  split at slept
  · rename_i short
    rw [if_pos short, yield_lineup lined slept]
    rfl
  · rename_i long
    rcases slept with ⟨wakeAt, sum, rest⟩
    rw [if_neg long, sum]
    have known : before.lineup.current = before.table.currentPid := rfl
    cases isCurrent : before.table.current with
    | none =>
        simp only [isCurrent] at rest
        rcases rest with ⟨rfl, rfl⟩
        rw [currentPid_of_none isCurrent] at known
        simp only [known]
        rfl
    | some slot =>
        simp only [isCurrent] at rest
        have mem := lined.mem_of_current isCurrent
        have inner := ProcessRecord.inner_doze wakeAt
        have decided := schedule_lineup (lined.update mem inner) rest
        rw [lineup_update _ lined mem inner] at decided
        rw [currentPid_of_current isCurrent] at known
        simp only [known]
        exact congrArg Except.ok decided

theorem steady_roused (dispatcher : Dispatcher) (ticks : UInt64) :
    Steady dispatcher.table (dispatcher.roused ticks).table where
  occupant slot := by
    rw [occupant, process_roused]
    exact ProcessRecord.identity_rouse _ ticks
  current := rfl
  head := rfl
  tail := rfl
  next slot := by
    rw [process_roused]
    exact (ProcessRecord.inner_rouse ticks).next _

theorem lineup_roused (lined : dispatcher.table.Lined slots) (ticks : UInt64) :
    (dispatcher.roused ticks).lineup = dispatcher.lineup.roused ticks := by
  have steady := steady_roused dispatcher ticks
  have current := currentPid_congr lined.current steady.current fun place _ =>
    steady.occupant place
  have woken : (dispatcher.roused ticks).table.line slots =
      (dispatcher.table.line slots).map (·.rouse ticks) := by
    rw [line, line, List.map_map]
    apply List.map_congr_left
    intro slot _
    rw [process_roused, (ProcessRecord.inner_rouse ticks).bare]
    rfl
  rw [lineup_eq _ (lined.steady steady), lineup_eq _ lined, current, woken]
  rfl

theorem find?_lineup (lined : dispatcher.table.Lined slots) (pid : Pid) :
    dispatcher.lineup.find? pid = (dispatcher.table.find? pid).map ProcessRecord.bare := by
  rw [lineup_eq _ lined, Lineup.find?]
  cases found : (dispatcher.table.line slots).find? fun process => process.pid == pid with
  | none =>
      have nobody : dispatcher.table.find? pid = none := by
        rw [find?_eq_none_iff]
        intro slot resources here
        rcases ProcessRecord.identity_eq_some.mp here with ⟨live, rfl, -⟩
        have listed : (dispatcher.table.process slot).bare ∈ dispatcher.table.line slots :=
          List.mem_map_of_mem (lined.mem live)
        exact absurd (List.find?_eq_none.mp found _ listed) (by simp)
      rw [nobody]
      rfl
  | some process =>
      rcases List.mem_map.mp (List.mem_of_find?_eq_some found) with ⟨slot, mem, rfl⟩
      have same : (dispatcher.table.process slot).pid = pid := by
        simpa using List.find?_some found
      rw [← same, find?_of_live lined.own (lined.isLive mem)]
      rfl

theorem find?_current (lined : dispatcher.table.Lined slots)
    (isCurrent : dispatcher.table.current = some slot) :
    dispatcher.lineup.current.bind dispatcher.lineup.find? =
      some (dispatcher.table.process slot).bare := by
  have known : dispatcher.lineup.current = some (dispatcher.table.process slot).pid :=
    currentPid_of_current isCurrent
  rw [known, Option.bind_some, find?_lineup lined,
    find?_of_live lined.own (lined.isLive (lined.mem_of_current isCurrent))]
  rfl

theorem charge_lineup (lined : before.table.Lined slots) (charges : before.Charges plan after) :
    before.lineup.charge = .ok (plan.map Switch.handoff, after.lineup) := by
  rw [Charges] at charges
  rw [Lineup.charge]
  cases isCurrent : before.table.current with
  | none =>
      have known : before.lineup.current = none := currentPid_of_none isCurrent
      simp only [isCurrent] at charges
      rw [known, charges.1, charges.2]
      rfl
  | some slot =>
      simp only [isCurrent] at charges
      have mem := lined.mem_of_current isCurrent
      rcases charges with ⟨totalTicks, sum, rest⟩
      have sumBare : Checked.add64 (before.table.process slot).bare.totalTicks 1 =
          .ok totalTicks := sum
      simp only [find?_current lined isCurrent, sumBare]
      by_cases more : 1 < (before.table.process slot).timeSlice
      · have moreBare : 1 < (before.table.process slot).bare.timeSlice := more
        rw [if_pos more] at rest
        rcases rest with ⟨rfl, rfl⟩
        rw [lineup_update _ lined mem (ProcessRecord.inner_charge totalTicks)]
        exact if_pos moreBare
      · have lastBare : ¬1 < (before.table.process slot).bare.timeSlice := more
        rw [if_neg more] at rest
        have inner := ProcessRecord.inner_renew totalTicks before.scheduler.config.timeSliceTicks
        have decided := schedule_lineup (lined.update mem inner) rest
        rw [lineup_update _ lined mem inner] at decided
        exact (if_neg lastBare).trans (congrArg Except.ok decided)

theorem tick_lineup (lined : before.table.Lined slots)
    (run : Dispatcher.tick.Yields before plan after) :
    before.lineup.tick = .ok (plan.map Switch.handoff, after.lineup) := by
  rcases yields_tick_iff.mp run with ⟨ticks, sum, charges⟩
  have counted : Checked.add64 before.lineup.scheduler.ticks 1 = .ok ticks := sum
  rw [Lineup.tick, counted, ← charge_lineup (lined.steady (steady_roused before ticks)) charges,
    lineup_roused lined]
  rfl

theorem searchPid_lineup (lined : dispatcher.table.Lined slots) (tries : Nat) (candidate : UInt32) :
    dispatcher.lineup.searchPid tries candidate =
      dispatcher.table.searchPid tries candidate := by
  induction tries generalizing candidate with
  | zero => rfl
  | succ tries ih =>
      have unused : dispatcher.lineup.find? ⟨candidate⟩ = none ↔
          dispatcher.table.slotOf ⟨candidate⟩ = none := by
        rw [find?_lineup lined, ProcessTable.find?, Option.map_map, Option.map_eq_none_iff]
      rw [Lineup.searchPid, ProcessTable.searchPid, ih]
      simp only [unused]

/-- Creating a process comes to the same without slots. -/
theorem create_lineup {name : String} {entry priority : UInt32} {resources : ProcessResources}
    {reply : Except ProcessError Pid} {table : ProcessTable} (lined : before.table.Lined slots)
    (run : (ProcessTable.create name entry priority resources).Yields before.table reply table) :
    before.lineup.create name entry priority resources =
      .ok (reply, ({ before with table } : Dispatcher).lineup) := by
  have full : before.lineup.line.length = Layout.maxProcesses ↔ before.table.isFull = true := by
    rw [lined.isFull_iff_length, lineup_eq _ lined, line, List.length_map]
  cases reply with
  | error cause =>
      rcases create_records run with ⟨refused, isFull, rfl⟩ | ⟨_, _, _, refuted, -⟩
      · cases refused
        exact if_pos (full.mpr isFull)
      · cases refuted
  | ok pid =>
      rcases create_enters run with ⟨slot, next, entered, searched, rethreaded⟩
      have notFull : ¬before.lineup.line.length = Layout.maxProcesses := by
        rw [full, isFull_eq_false_of_vacant (ProcessRecord.identity_eq_none.mp entered.vacant)]
        exact Bool.false_ne_true
      have current := currentPid_congr lined.current entered.current fun place isCurrent =>
        entered.stays (lined.current place isCurrent)
      rw [Lineup.create, if_neg notFull, searchPid_lineup lined]
      change (match before.table.searchPid _ before.table.nextPid with
        | none => _
        | some (pid, nextPid) => _) = _
      rw [searched, lineup_eq { before with table } (lined.entered entered), lineup_eq before lined,
        current, lined.line_entered entered rethreaded, rethreaded.nextPid, rethreaded.timeSlice]
      rfl

/-- Ending a process comes to the same without slots. -/
theorem exit_lineup {code : Int32} {reply : Option ProcessRecord} {table : ProcessTable}
    (lined : before.table.Lined slots)
    (run : (ProcessTable.exit code).Yields before.table reply table) :
    before.lineup.exit =
      (reply.map ProcessRecord.bare, ({ before with table } : Dispatcher).lineup) := by
  rcases exit_records run with
    ⟨rfl, noCurrent, rfl⟩ | ⟨slot, between, isCurrent, rethreaded, rfl, rfl⟩
  · have known : before.lineup.current = none := currentPid_of_none noCurrent
    rw [Lineup.exit, known]
    rfl
  · have mem := lined.mem_of_current isCurrent
    rcases exit_cases lined.current run with ⟨refuted, -⟩ | ⟨place, process, -, left⟩
    · cases refuted
    have here : place = slot := Option.some.inj (left.current.symm.trans isCurrent)
    subst here
    have closed : ((between.update place close).process place).bare =
        close (before.table.process place).bare := by
      rcases rethreaded.process place with ⟨link, record⟩
      rw [process_update, if_pos rfl, record]
      rfl
    have nobody : (between.update place close).currentPid = none := currentPid_of_none left.idle
    rw [Lineup.exit, find?_current lined isCurrent,
      lineup_eq { before with table := between.update place close } (lined.left left), nobody,
      lined.line_left mem rethreaded, Option.map_some, closed, lineup_eq before lined]
    have counter : (between.update place close).nextPid = before.table.nextPid :=
      rethreaded.nextPid
    have turn : (between.update place close).timeSlice = before.table.timeSlice :=
      rethreaded.timeSlice
    rw [counter, turn]
    rfl

end Lineup

end Dispatcher

end KernelCore
