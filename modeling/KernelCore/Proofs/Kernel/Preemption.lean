import KernelCore.Proofs.Kernel.Registers
import KernelCore.Proofs.Kernel.Sleep
import KernelCore.Proofs.Scheduler.Preemption

/-!
# When a process is preempted

A kernel that has come up with some settings keeps to them until it comes up again. The states that
it can be in, whatever is asked of it, are `Kernel.Configured`. In all of them, whoever has the
processor keeps it for the ticks that are left of its turn and no longer, if nothing but ticks
happens. With the last of them the processor goes to the process that is next.
-/

namespace KernelCore

open ProcessTable

namespace Kernel

open Custody

/-- The states that a kernel can be in after it has come up with some settings, and the ids that it
has given out since, first to last. Between calls, the processor may do whatever it likes. -/
inductive Configured (config : SchedulerConfig) : List Pid → Kernel → Prop where
  | begun {before after : Kernel} {memory : BootMemory} {idleEntry : UInt32}
      (run : (Kernel.init memory idleEntry config).Yields before (.ok ()) after) :
      Configured config [after.idle] after
  | refused {made : List Pid} {before after : Kernel} {memory : BootMemory} {idleEntry : UInt32}
      {other : SchedulerConfig} {cause : KernelError} (configured : Configured config made before)
      (run : (Kernel.init memory idleEntry other).Yields before (.error cause) after) :
      Configured config made after
  | ran {made : List Pid} {kernel : Kernel} (configured : Configured config made kernel)
      (cpu : Cpu) : Configured config made { kernel with cpu }
  | served {made : List Pid} {custody final : Custody} {call : Call} {answer : Answer}
      (configured : Configured config made custody.kernel)
      (step : call.answer.Yields custody answer final) :
      Configured config (made ++ (answer.began.map Prod.fst).toList) final.kernel

/-- Where a kernel gets in so many ticks, if nothing is asked of it. Between ticks, the processor
may do whatever it likes. -/
inductive Ticking (start : Kernel) : Nat → Kernel → Prop where
  | begin : Ticking start 0 start
  | ran {count : Nat} {kernel : Kernel} (ticking : Ticking start count kernel) (cpu : Cpu) :
      Ticking start count { kernel with cpu }
  | ticked {count : Nat} {before after : Kernel} {plan : Option Switch}
      (ticking : Ticking start count before) (run : Kernel.tick.Yields before plan after) :
      Ticking start (count + 1) after

/-- The process in the slot has had the processor for so many ticks of its turn. -/
structure Spent (slot : Slot) (start : Kernel) (count : Nat) (now : Kernel) : Prop where
  current : now.table.current = some slot
  left : (now.table.process slot).timeSlice.toNat + count =
    (start.table.process slot).timeSlice.toNat
  charged : (now.table.process slot).totalTicks.toNat =
    (start.table.process slot).totalTicks.toNat + count
  clock : now.uptime = start.uptime + count

/-- With the tick, the turn of the process in the slot is over. It is charged, and the scheduler
decides; there is no other change. If somebody can run as the tick comes, the one that is next has
the processor for a whole turn, and a switch is planned unless it had the processor already. -/
structure Preempts (turn : UInt32) (made : List Pid) (slot : Slot) (before : Kernel)
    (plan : Option Switch) (after : Kernel) : Prop where
  decides : ∃ dispatcher,
    Dispatcher.schedule.Yields (before.dispatcher.renew slot) plan dispatcher ∧
    after = { before with
      spaces := { before.spaces with
        current := (plan.bind Switch.directory).or before.spaces.current }
      dispatcher }
  charged : (after.table.process slot).totalTicks.toNat =
    (before.table.process slot).totalTicks.toNat + 1
  next : (∃ other, (before.dispatcher.awake.table.process other).Runnable) →
    ∃ best, before.dispatcher.awake.table.Next made best ∧ after.table.current = some best ∧
      (after.table.process best).state = .running ∧
      (after.table.process best).timeSlice = turn ∧
      plan.map (fun switch => switch.incoming) = if best = slot then none else
        some ((before.dispatcher.awake.table.process best).pid, best)

section Handled

variable {made : List Pid} {before after : Kernel} {call : Call} {answer : Answer}

/-- If nobody is created, the line is that of before. -/
theorem inLine_of_nobody {table : ProcessTable} (inLine : table.InLine made) :
    table.InLine (made ++ ((none : Option (Pid × UInt32)).map Prod.fst).toList) := by
  rw [Option.map_none, Option.toList_none, List.append_nil]
  exact inLine

/-- Whatever the call, the queue stays in the order of creation. -/
theorem Handled.inLine (handled : Handled before call answer after)
    (live : CurrentLive before.table) (inLine : before.table.InLine made) :
    after.table.InLine (made ++ (answer.began.map Prod.fst).toList) := by
  cases handled with
  | spawned outcome =>
      cases outcome with
      | full isFull => exact inLine_of_nobody inLine
      | noBlock refused => exact inLine_of_nobody inLine
      | noFrame refused => exact inLine_of_nobody inLine
      | created granted made reach entered =>
          rcases create_enters entered with ⟨slot, next, enters, -, -⟩
          exact inLine.entered enters
  | decided asks decides =>
      have scheduled := scheduled_of_decides asks live decides
      exact inLine_of_nobody (inLine.congr scheduled.occupant scheduled.queue)
  | exited quits outcome =>
      cases outcome with
      | ignored isIdle => exact inLine_of_nobody inLine
      | nobody noCurrent => exact inLine_of_nobody inLine
      | ended other ending returned decided =>
          rcases returned.parts with ⟨spaces, heap, rfl⟩
          rcases decided with ⟨dispatcher, current, decided, rfl⟩
          rcases exit_cases live ending with ⟨refuted, -⟩ | ⟨slot, _, -, left⟩
          · cases refuted
          have scheduled := Dispatcher.schedule_scheduled left.currentLive decided
          exact inLine_of_nobody ((inLine.left left).congr scheduled.occupant scheduled.queue)
  | @performed switch cpu =>
      have steady := Dispatcher.steady_apply switch before.cpu.registers before.dispatcher.table
      exact inLine_of_nobody (inLine.congr steady.occupant steady.toSameQueue)
  | allocated done => exact inLine_of_nobody inLine
  | freed done => exact inLine_of_nobody inLine
  | elsewhere spaces => exact inLine_of_nobody inLine

end Handled

section Configured

variable {config : SchedulerConfig} {made : List Pid} {kernel before after : Kernel}
  {plan : Option Switch} {slot : Slot}

/-- There is more left than the next tick if that is not the last one. -/
theorem Spent.more_iff {count : Nat} (spent : Spent slot kernel count after) :
    1 < (after.table.process slot).timeSlice ↔
      count + 1 < (kernel.table.process slot).timeSlice.toNat := by
  have one : (1 : UInt32).toNat = 1 := rfl
  have left := spent.left
  rw [UInt32.lt_iff_toNat_lt]
  omega

theorem Configured.reached (configured : Configured config made kernel) : kernel.Reached := by
  induction configured with
  | begun run => exact .begun run
  | refused _ run ih => exact .again ih run
  | ran _ cpu ih => exact .ran ih cpu
  | served _ step ih => exact .served ih (act_of_answer step)

theorem Configured.served_of_nobody {custody final : Custody} {call : Call} {answer : Answer}
    (configured : Configured config made custody.kernel) (nobody : answer.began = none)
    (step : call.answer.Yields custody answer final) : Configured config made final.kernel := by
  have served := configured.served step
  rw [nobody, Option.map_none, Option.toList_none, List.append_nil] at served
  exact served

/-- What holds of an empty table, and what no request changes short of starting over, holds in all
these states. -/
theorem Configured.keeps (holds : Dispatcher → Prop)
    (empty : holds ⟨.empty config.timeSliceTicks, { config }⟩)
    (keeps : ∀ (request : Dispatcher.Call) (start : Dispatcher) (plan : Option Switch)
      (final : Dispatcher), (∀ timeSlice, request ≠ .reset timeSlice) → holds start →
      request.act.Yields start plan final → holds final)
    (configured : Configured config made kernel) : holds kernel.dispatcher := by
  induction configured with
  | begun run =>
      cases init_outcome run with
      | @ready _ root table heap created dispatcher =>
          rw [dispatcher]
          exact keeps (.create "idle" _ Layout.idlePriority { directory := root }) _ none _
            (by simp) empty (Dispatcher.yields_unplanned.mpr ⟨rfl, _, table, created, rfl⟩)
  | refused _ run ih =>
      cases init_outcome run with
      | refused heap dispatcher =>
          rw [dispatcher]
          exact ih
  | ran _ cpu ih => exact ih
  | served configured step ih =>
      exact (handled_of_answer configured.reached.intact.heap step).keeps keeps ih

theorem Configured.sliced (configured : Configured config made kernel) :
    kernel.dispatcher.Sliced config.timeSliceTicks := by
  have both : kernel.dispatcher.Housed ∧ kernel.dispatcher.Sliced config.timeSliceTicks := by
    refine configured.keeps
      (fun dispatcher => dispatcher.Housed ∧ dispatcher.Sliced config.timeSliceTicks)
      ⟨Dispatcher.housed_empty _ _, Dispatcher.sliced_empty config⟩ ?_
    rintro request start plan final onward ⟨housed, sliced⟩ run
    exact ⟨request.act_housed housed run, request.act_sliced onward housed.currentLive sliced run⟩
  exact both.2

theorem Configured.timed (configured : Configured config made kernel) :
    ∃ limit, kernel.dispatcher.Timed limit := by
  refine configured.keeps (fun dispatcher => ∃ limit, dispatcher.Timed limit)
    ⟨0, Dispatcher.timed_empty _ config⟩ ?_
  rintro request start plan final - ⟨limit, timed⟩ run
  by_cases isTick : request = .tick
  · subst isTick
    exact ⟨limit + 1, timed.tick run⟩
  · exact ⟨limit, request.act_timed isTick timed run⟩

/-- Nobody has had more ticks than the clock shows, so another one can be charged if it can be
counted. -/
theorem Configured.totalTicks_fits (configured : Configured config made kernel)
    (clock : kernel.uptime + 1 < UInt64.size) (slot : Slot) :
    (kernel.table.process slot).totalTicks.toNat + 1 < UInt64.size := by
  rcases configured.timed with ⟨limit, timed⟩
  exact Nat.lt_of_le_of_lt (Nat.succ_le_succ (timed.spent slot)) clock

theorem Configured.inLine (configured : Configured config made kernel) :
    kernel.table.InLine made := by
  induction configured with
  | begun run =>
      cases init_outcome run with
      | ready heap created dispatcher =>
          rcases create_enters created with ⟨slot, next, enters, -, -⟩
          rw [table, dispatcher]
          exact (inLine_empty _ []).entered enters
  | refused _ run ih =>
      cases init_outcome run with
      | refused heap dispatcher =>
          rw [table, dispatcher]
          exact ih
  | ran _ cpu ih => exact ih
  | served configured step ih =>
      have intact := configured.reached.intact
      exact (handled_of_answer intact.heap step).inLine intact.housed.currentLive ih

/-- What a decision of the dispatcher comes to for the kernel. -/
theorem yields_of_decided {decision : Operation Dispatcher (Option Switch)}
    {dispatcher : Dispatcher} (decided : decision.Yields before.dispatcher plan dispatcher) :
    (masked do track (← onDispatcher decision)).Yields before plan
      { before with
        spaces := { before.spaces with
          current := (plan.bind Switch.directory).or before.spaces.current }
        dispatcher } := by
  rcases yields_decision ⟨plan, dispatcher, decided⟩ with ⟨other, after, run⟩
  rcases decides_of_masked run with ⟨again, current, decidedAgain, rfl⟩
  rcases decided.unique decidedAgain with ⟨rfl, rfl⟩
  have noted := current_of_decision run
  rw [← noted]
  exact run

theorem uptime_fits_of_tick (run : Kernel.tick.Yields kernel plan after) :
    kernel.uptime + 1 < UInt64.size := by
  rcases decides_of_masked run with ⟨_, _, decided, -⟩
  rcases Dispatcher.yields_tick_iff.mp decided with ⟨ticks, sum, -⟩
  have counted : ticks.toNat = kernel.uptime + 1 := Checked.add64_eq_ok_iff.mp sum
  rw [← counted]
  exact ticks.toNat_lt_size

/-- The next tick of a process that has the processor: its turn goes on if there is more left of it
than the tick, and else it is over. -/
theorem Configured.tick_cases (configured : Configured config made kernel)
    (isCurrent : kernel.table.current = some slot) (clock : kernel.uptime + 1 < UInt64.size) :
    ∃ plan after, Kernel.tick.Yields kernel plan after ∧
      if 1 < (kernel.table.process slot).timeSlice then
        plan = none ∧ after = { kernel with dispatcher := kernel.dispatcher.spend slot }
      else Preempts config.timeSliceTicks made slot kernel plan after := by
  have housed := configured.reached.intact.housed
  have few := configured.totalTicks_fits clock slot
  rcases housed.queued with ⟨slots, queued⟩
  by_cases more : 1 < (kernel.table.process slot).timeSlice
  · have ticked : Dispatcher.tick.Yields kernel.dispatcher none (kernel.dispatcher.spend slot) := by
      refine (Dispatcher.yields_tick_iff_of_current isCurrent clock few).mpr ?_
      exact (if_pos more).mpr ⟨rfl, rfl⟩
    refine ⟨none, _, yields_of_decided ticked, ?_⟩
    rw [if_pos more]
    exact ⟨rfl, rfl⟩
  · have steady := Dispatcher.steady_renew kernel.dispatcher slot
    rcases Dispatcher.yields_schedule (queued.toLinked.sameQueue steady.toSameQueue) with
      ⟨plan, dispatcher, decided⟩
    have ticked : Dispatcher.tick.Yields kernel.dispatcher plan dispatcher := by
      refine (Dispatcher.yields_tick_iff_of_current isCurrent clock few).mpr ?_
      exact (if_neg more).mpr decided
    refine ⟨plan, _, yields_of_decided ticked, ?_⟩
    rw [if_neg more]
    refine ⟨⟨dispatcher, decided, rfl⟩, ?_, fun somebody => ?_⟩
    · change (dispatcher.table.process slot).totalTicks.toNat = _
      rw [(Dispatcher.decision_of_schedule decided).totalTicks, Dispatcher.totalTicks_renew]
      exact Checked.toNat_add_one few
    · rcases Dispatcher.next_of_renew housed.toSound configured.inLine isCurrent somebody decided
        with ⟨best, next, holds, running, left, planned⟩
      exact ⟨best, next, holds, running, left.trans configured.sliced.config, planned⟩

theorem Ticking.configured {count : Nat} (ticking : Ticking kernel count after)
    (configured : Configured config made kernel) : Configured config made after := by
  induction ticking with
  | begin => exact configured
  | ran ticking cpu ih => exact .ran ih cpu
  | @ticked _ before after plan ticking run ih =>
      have start : Configured config made (ofKernel before).kernel := ih
      have step : Call.tick.answer.Yields (ofKernel before) { plan } (ofKernel after) :=
        yields_kept run rfl
      exact start.served_of_nobody rfl step

/-- As long as there is more left of a turn, nobody else gets the processor. -/
theorem Ticking.spent {count : Nat} (ticking : Ticking kernel count after)
    (configured : Configured config made kernel) (isCurrent : kernel.table.current = some slot)
    (within : count < (kernel.table.process slot).timeSlice.toNat) :
    Spent slot kernel count after := by
  induction ticking with
  | begin => exact ⟨isCurrent, rfl, rfl, rfl⟩
  | ran ticking cpu ih =>
      rcases ih within with ⟨current, left, charged, clock⟩
      exact ⟨current, left, charged, clock⟩
  | @ticked count before after plan ticking run ih =>
      have spent := ih (Nat.lt_of_succ_lt within)
      have more := spent.more_iff.mpr within
      have clock := uptime_fits_of_tick run
      have started := ticking.configured configured
      -- A tick has one outcome only, so this one was one in the middle of the turn.
      rcases started.tick_cases spent.current clock with ⟨_, _, again, outcome⟩
      rcases run.unique again with ⟨rfl, rfl⟩
      rw [if_pos more] at outcome
      rcases outcome with ⟨rfl, rfl⟩
      refine ⟨spent.current, ?_, ?_, ?_⟩
      · rw [← spent.left, Nat.add_comm count, ← Nat.add_assoc]
        exact congrArg (· + count) (Dispatcher.timeSlice_spend more)
      · rw [← Nat.add_assoc, ← spent.charged]
        exact Dispatcher.totalTicks_spend (started.totalTicks_fits clock slot)
      · rw [← Nat.add_assoc, ← spent.clock]
        exact Checked.toNat_add_one clock

/-- If a turn lasts for a tick or more, live processes have at least a tick and at most a turn ahead
of them. Whoever has the processor keeps it for the ticks that are left of its turn, if nothing but
ticks happens and the clock does not come to its end. Each of them but the last charges it and wakes
up those whose sleep is over, and does nothing else. With the last one its turn is over, and if
somebody can run, the processor goes to the one that was created last of those with the highest
priority. If turns last for no tick, that is so with every tick. -/
theorem Configured.preempts_on_last_tick (configured : Configured config made kernel) :
    (1 ≤ config.timeSliceTicks → ∀ slot, (kernel.table.process slot).isLive = true →
      1 ≤ (kernel.table.process slot).timeSlice ∧
        (kernel.table.process slot).timeSlice ≤ config.timeSliceTicks) ∧
    ∀ slot, kernel.table.current = some slot →
      (∀ count now, Ticking kernel count now →
        count < (kernel.table.process slot).timeSlice.toNat → now.uptime + 1 < UInt64.size →
        Spent slot kernel count now ∧ ∃ plan after, Kernel.tick.Yields now plan after ∧
          (count + 1 < (kernel.table.process slot).timeSlice.toNat →
            plan = none ∧ after = { now with dispatcher := now.dispatcher.spend slot }) ∧
          (count + 1 = (kernel.table.process slot).timeSlice.toNat →
            Preempts config.timeSliceTicks made slot now plan after)) ∧
      (config.timeSliceTicks = 0 → kernel.uptime + 1 < UInt64.size →
        ∃ plan after, Kernel.tick.Yields kernel plan after ∧
          Preempts config.timeSliceTicks made slot kernel plan after) := by
  have sliced := configured.sliced
  refine ⟨?_, fun slot isCurrent => ⟨?_, ?_⟩⟩
  · intro atLeast slot live
    exact ⟨(sliced.left slot live).2 atLeast, (sliced.left slot live).1⟩
  · intro count now ticking within clock
    have spent := ticking.spent configured isCurrent within
    rcases (ticking.configured configured).tick_cases spent.current clock with
      ⟨plan, after, run, outcome⟩
    refine ⟨spent, plan, after, run, fun early => ?_, fun last => ?_⟩
    · rw [if_pos (spent.more_iff.mpr early)] at outcome
      exact outcome
    · rw [if_neg fun more => absurd last (Nat.ne_of_lt (spent.more_iff.mp more))] at outcome
      exact outcome
  · intro noTick clock
    rcases configured.tick_cases isCurrent clock with ⟨plan, after, run, outcome⟩
    have live : (kernel.table.process slot).isLive = true :=
      configured.reached.intact.housed.live isCurrent
    have noMore : ¬1 < (kernel.table.process slot).timeSlice := by
      have most := (sliced.left slot live).1
      rw [noTick] at most
      exact fun more => absurd (UInt32.lt_of_lt_of_le more most) (by decide)
    rw [if_neg noMore] at outcome
    exact ⟨plan, after, run, outcome⟩

end Configured

/-- There are two live processes, and the second waits though no priority is higher than its own. -/
structure Contested (table : ProcessTable) (home away : Slot) : Prop where
  differ : away ≠ home
  others : ∀ slot, (table.process slot).isLive = true → slot = home ∨ slot = away
  homePid : (table.process home).pid = ⟨1⟩
  awayPid : (table.process away).pid = ⟨2⟩
  waits : (table.process away).state = .ready
  urgent : (table.process away).priority = 0xFFFFFFFF

section Contested

variable {table : ProcessTable} {dispatcher : Dispatcher} {home away best : Slot}

/-- When the turn of the first is over, it is the second's. -/
theorem Contested.next (contested : Contested table home away)
    (next : table.Next [⟨1⟩, ⟨2⟩] best) : best = away := by
  rcases contested.others best next.runnable.isLive with rfl | isAway
  · rcases next.last with ⟨earlier, later, made, lower⟩
    rw [contested.homePid] at made
    have second : (⟨2⟩ : Pid) ∈ later := by
      rcases List.cons_eq_append_iff.mp made with ⟨rfl, same⟩ | ⟨rest, rfl, same⟩
      · cases same
        exact List.mem_singleton.mpr rfl
      · have first : (⟨1⟩ : Pid) ∈ [(⟨2⟩ : Pid)] := same ▸ List.mem_append_right _ List.mem_cons_self
        cases List.mem_singleton.mp first
    have less := lower away (Or.inl contested.waits) (contested.awayPid ▸ second)
    rw [contested.urgent, UInt32.lt_iff_toNat_lt] at less
    exact absurd (table.process best).priority.toNat_lt (Nat.not_lt.mpr less)
  · exact isAway

theorem Contested.awake (contested : Contested dispatcher.table home away) :
    Contested dispatcher.awake.table home away := by
  have record : ∀ slot, dispatcher.awake.table.process slot =
      (dispatcher.table.process slot).rouse (dispatcher.scheduler.ticks + 1) :=
    Dispatcher.process_roused dispatcher _
  have pid : ∀ slot, (dispatcher.awake.table.process slot).pid =
      (dispatcher.table.process slot).pid := fun slot =>
    (congrArg ProcessRecord.pid (record slot)).trans
      (ProcessRecord.same_rouse ProcessRecord.pid (fun _ _ _ => rfl) _ _)
  refine ⟨contested.differ, fun slot live => contested.others slot ?_,
    (pid home).trans contested.homePid, (pid away).trans contested.awayPid, ?_, ?_⟩
  · rwa [record, ProcessRecord.isLive_rouse] at live
  · rw [record, ProcessRecord.rouse]
    split
    · rfl
    · exact contested.waits
  · rw [record, ProcessRecord.same_rouse ProcessRecord.priority fun _ _ _ => rfl]
    exact contested.urgent

/-- A tick in the middle of the first one's turn leaves it to wait. -/
theorem Contested.spend (contested : Contested dispatcher.table home away) :
    Contested (dispatcher.spend home).table home away := by
  have awake := contested.awake
  have homeRecord : (dispatcher.spend home).table.process home = _ :=
    (process_update _ _ _ _).trans (if_pos rfl)
  have elsewhere : ∀ slot, home ≠ slot → (dispatcher.spend home).table.process slot =
      dispatcher.awake.table.process slot := fun slot differs =>
    (process_update _ _ _ _).trans (if_neg differs)
  have awayRecord := elsewhere away contested.differ.symm
  refine ⟨awake.differ, fun slot live => ?_, ?_, ?_, ?_, ?_⟩
  · by_cases here : home = slot
    · exact Or.inl here.symm
    · rw [elsewhere slot here] at live
      exact awake.others slot live
  · rw [homeRecord]
    exact awake.homePid
  · rw [awayRecord]
    exact awake.awayPid
  · rw [awayRecord]
    exact awake.waits
  · rw [awayRecord]
    exact awake.urgent

/-- The idle process has the processor when another one is created. -/
theorem contested_of_spawn {kernel : Kernel} {root : Directory} {config : SchedulerConfig}
    (rested : kernel.Rested root home 2) (idle : kernel.idle = ⟨1⟩)
    (configured : Configured config [⟨1⟩] kernel) (name : String) (entry : UInt32) :
    ∃ hosts away, Configured config [⟨1⟩, ⟨2⟩] hosts ∧ Contested hosts.table home away ∧
      hosts.table.current = some home ∧
      (hosts.table.process home).timeSlice = (kernel.table.process home).timeSlice ∧
      hosts.dispatcher.scheduler = kernel.dispatcher.scheduler := by
  rcases rested.spawn (by decide) name entry 0xFFFFFFFF with
    ⟨pid, hosts, away, spawned, hosting, here, isCurrent, running, ready⟩
  have second : pid = ⟨2⟩ := by
    have number := hosting.table.awayPid
    rw [here] at number
    rcases pid with ⟨word⟩
    exact congrArg Pid.mk (UInt32.toNat_inj.mp number)
  subst second
  have start : Configured config [⟨1⟩] (ofKernel kernel).kernel := configured
  have step : (Call.spawn name entry 0xFFFFFFFF).answer.Yields (ofKernel kernel)
      { began := some (⟨2⟩, entry) } (ofKernel hosts) := yields_kept spawned rfl
  have served : Configured config [⟨1⟩, ⟨2⟩] hosts := start.served step
  have outcome := spawn_outcome rested.accounted.heap spawned
  cases outcome with
  | @created _ _ _ _ _ _ table granted made reach entered =>
      rcases create_records entered with ⟨refuted, -⟩ | ⟨place, _, next, same, -, -, rethreaded⟩
      · cases refuted
      cases same
      have isAway : place = away := by
        by_contra elsewhere
        rcases rethreaded.process_elsewhere elsewhere with ⟨link, record⟩
        change (table.process away).state = .ready at ready
        rw [record] at ready
        have was : (kernel.table.process away).isLive = true :=
          ProcessRecord.Runnable.isLive (Or.inl ready)
        rw [rested.table.vacant hosting.table.differ] at was
        cases was
      subst isAway
      rcases rethreaded.process_here with ⟨link, awayRecord⟩
      rcases rethreaded.process_elsewhere hosting.table.differ with ⟨homeLink, homeRecord⟩
      refine ⟨_, place, served, ⟨hosting.table.differ, hosting.table.others, ?_, here, ready, ?_⟩,
        isCurrent, ?_, rfl⟩
      · exact hosting.table.homePid.trans idle
      · exact congrArg ProcessRecord.priority awayRecord
      · change (table.process home).timeSlice = _
        rw [homeRecord]
        rfl

theorem contested_of_bringup :
    ∃ kernel home away, Configured { timeSliceTicks := 2 } [⟨1⟩, ⟨2⟩] kernel ∧
      Contested kernel.table home away ∧ kernel.table.current = some home ∧
      (kernel.table.process home).timeSlice = 2 ∧
      kernel.dispatcher.scheduler = { config := { timeSliceTicks := 2 } } := by
  rcases rested_with_16000 { timeSliceTicks := 2 } with
    ⟨started, plan, kernel, root, home, begun, start, idle, scheduler, rested⟩
  rcases lonely_of_begun (init_outcome begun) with ⟨isFirst, _, -, noCurrent, -⟩
  have fresh : Configured { timeSliceTicks := 2 } [⟨1⟩] (ofKernel started).kernel :=
    isFirst ▸ .begun begun
  have step : Call.start.answer.Yields (ofKernel started) { plan } (ofKernel kernel) :=
    yields_kept start rfl
  have whole : (kernel.table.process home).timeSlice = 2 := by
    rcases decides_of_masked start with ⟨dispatcher, current, decided, rfl⟩
    have gains := rested.table.current
    refine ((Dispatcher.decision_of_schedule decided).timeSlice ?_ gains).trans ?_
    · rw [show started.dispatcher.table.current = none from noCurrent]
      exact (Option.some_ne_none home).symm
    · rw [scheduler_of_begun (init_outcome begun)]
  rcases contested_of_spawn rested idle (fresh.served_of_nobody rfl step) "p" 0x108000 with
    ⟨hosts, away, configured, contested, isCurrent, kept, clock⟩
  exact ⟨hosts, home, away, configured, contested, isCurrent, kept.trans whole,
    clock.trans scheduler⟩

/-- With turns of two ticks, the first tick is in the middle of the idle process's turn, and with
the second the processor goes to the process that waits. -/
theorem Configured.preempts_on_last_tick_of_two :
    ∃ kernel home away middle switch after,
      Configured { timeSliceTicks := 2 } [⟨1⟩, ⟨2⟩] kernel ∧
      kernel.table.current = some home ∧
      Kernel.tick.Yields kernel none middle ∧ middle.table.current = some home ∧
      Kernel.tick.Yields middle (some switch) after ∧ switch.incoming = (⟨2⟩, away) ∧
      after.table.current = some away ∧ (after.table.process away).state = .running ∧
      (after.table.process away).timeSlice = 2 := by
  rcases contested_of_bringup with
    ⟨kernel, home, away, configured, contested, isCurrent, whole, scheduler⟩
  rcases configured.preempts_on_last_tick with ⟨-, ticks⟩
  have turns := (ticks home isCurrent).1
  rw [whole] at turns
  have clock : kernel.uptime + 1 < UInt64.size := by
    rw [uptime, scheduler]
    decide
  rcases turns 0 kernel .begin (by decide) clock with ⟨-, plan, middle, first, early, -⟩
  rcases early (by decide) with ⟨rfl, rfl⟩
  have clockMiddle : uptime { kernel with dispatcher := kernel.dispatcher.spend home } + 1 <
      UInt64.size := by
    change (kernel.dispatcher.scheduler.ticks + 1).toNat + 1 < UInt64.size
    rw [scheduler]
    decide
  rcases turns 1 _ (.ticked .begin first) (by decide) clockMiddle with
    ⟨spent, plan, after, second, -, last⟩
  have waiting := contested.spend.awake
  rcases (last rfl).next ⟨away, Or.inl waiting.waits⟩ with
    ⟨best, next, holds, running, turn, planned⟩
  cases waiting.next next
  rw [if_neg contested.differ] at planned
  rcases Option.map_eq_some_iff.mp planned with ⟨switch, rfl, incoming⟩
  refine ⟨kernel, home, away, _, switch, after, configured, isCurrent, first, spent.current, second,
    ?_, holds, running, turn⟩
  exact incoming.trans (congrArg (·, away) waiting.awayPid)

end Contested

end Kernel

end KernelCore
