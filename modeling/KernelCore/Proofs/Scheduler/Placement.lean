import KernelCore.Proofs.Scheduler.Lineup

/-!
# Slots make no difference

Requests are what may be asked of the processes and the scheduler apart from carrying a plan out.
What a dispatcher answers to requests, and the lineup that it is left with, can be computed from its
lineup alone. So two dispatchers that differ only in the slots of processes answer alike, however
they have come to differ, and remain such.
-/

namespace KernelCore

open ProcessTable

namespace Dispatcher

/-- What may be asked of the processes and the scheduler, apart from carrying out a plan. -/
inductive Request where
  | create (name : String) (entry priority : UInt32) (resources : ProcessResources)
  | exit (code : Int32)
  | reset (timeSlice : UInt32)
  | schedule
  | tick
  | yield
  | sleep (milliseconds : UInt32)

/-- The answer to a request. -/
inductive Reply (Plan : Type) where
  | created (reply : Except ProcessError Pid)
  | exited (process : Option ProcessRecord)
  | cleared
  | planned (plan : Option Plan)

/-- The answer without slots. -/
def Reply.bare : Reply Switch → Reply Handoff
  | .created reply => .created reply
  | .exited process => .exited (process.map ProcessRecord.bare)
  | .cleared => .cleared
  | .planned plan => .planned (plan.map Switch.handoff)

def Request.call : Request → Call
  | .create name entry priority resources => .create name entry priority resources
  | .exit code => .exit code
  | .reset timeSlice => .reset timeSlice
  | .schedule => .schedule
  | .tick => .tick
  | .yield => .yield
  | .sleep milliseconds => .sleep milliseconds

def Request.act : Request → Operation Dispatcher (Reply Switch)
  | .create name entry priority resources =>
      .created <$> onTable (ProcessTable.create name entry priority resources).result
  | .exit code => .exited <$> onTable (ProcessTable.exit code)
  | .reset timeSlice => (fun _ => .cleared) <$> onTable (set (ProcessTable.empty timeSlice))
  | .schedule => .planned <$> Dispatcher.schedule
  | .tick => .planned <$> Dispatcher.tick
  | .yield => .planned <$> Dispatcher.yield
  | .sleep milliseconds => .planned <$> Dispatcher.sleep milliseconds

/-- Serves one request after the other. -/
def serve : List Request → Operation Dispatcher (List (Reply Switch))
  | [] => return []
  | request :: rest => do
      let reply ← request.act
      return reply :: (← serve rest)

/-- The answers to requests and what they leave behind, without slots. -/
def results (requests : List Request) (dispatcher : Dispatcher) :
    Except Fault (List (Reply Handoff) × Lineup) :=
  (serve requests dispatcher).map fun outcome =>
    (outcome.value.map Reply.bare, outcome.state.lineup)

end Dispatcher

namespace Lineup

open Dispatcher

def answer (lineup : Lineup) : Request → Except Fault (Reply Handoff × Lineup)
  | .create name entry priority resources =>
      (lineup.create name entry priority resources).map (Prod.map .created id)
  | .exit _ => .ok (lineup.exit.map .exited id)
  | .reset timeSlice => .ok (.cleared, .empty timeSlice lineup.scheduler)
  | .schedule => .ok (lineup.schedule.map .planned id)
  | .tick => lineup.tick.map (Prod.map .planned id)
  | .yield => .ok (lineup.yield.map .planned id)
  | .sleep milliseconds => (lineup.sleep milliseconds).map (Prod.map .planned id)

def results (lineup : Lineup) : List Request → Except Fault (List (Reply Handoff) × Lineup)
  | [] => return ([], lineup)
  | request :: rest => do
      let (reply, next) ← lineup.answer request
      let (replies, final) ← next.results rest
      return (reply :: replies, final)

end Lineup

namespace Dispatcher

section Requests

variable {before after dispatcher : Dispatcher} {request : Request} {reply : Reply Switch}
  {slots : List Slot}

theorem Housed.lined (housed : dispatcher.Housed) : ∃ slots, dispatcher.table.Lined slots := by
  rcases housed.queued with ⟨slots, queued⟩
  exact ⟨slots, queued, housed.distinct, housed.currentLive⟩

/-- A request is a call. -/
theorem Request.yields_call (run : request.act.Yields before reply after) :
    ∃ plan, request.call.act.Yields before plan after := by
  cases request with
  | create name entry priority resources =>
      rcases Operation.yields_map.mp run with ⟨_, done, -⟩
      rcases yields_onTable.mp done with ⟨table, created, rfl⟩
      exact ⟨none, yields_unplanned.mpr ⟨rfl, _, table, created, rfl⟩⟩
  | exit code =>
      rcases Operation.yields_map.mp run with ⟨_, done, -⟩
      rcases yields_onTable.mp done with ⟨table, exited, rfl⟩
      exact ⟨none, yields_unplanned.mpr ⟨rfl, _, table, exited, rfl⟩⟩
  | reset timeSlice =>
      rcases Operation.yields_map.mp run with ⟨_, done, -⟩
      rcases yields_onTable.mp done with ⟨table, emptied, rfl⟩
      exact ⟨none, yields_unplanned.mpr ⟨rfl, _, table, emptied, rfl⟩⟩
  | schedule | tick | yield | sleep milliseconds =>
      rcases Operation.yields_map.mp run with ⟨plan, decided, -⟩
      exact ⟨plan, decided⟩

theorem Request.act_housed (housed : before.Housed)
    (run : request.act.Yields before reply after) : after.Housed := by
  rcases request.yields_call run with ⟨plan, called⟩
  exact request.call.act_housed housed called

/-- What is answered to a request can be computed without slots. -/
theorem Request.act_lineup (lined : before.table.Lined slots)
    (run : request.act.Yields before reply after) :
    before.lineup.answer request = .ok (reply.bare, after.lineup) := by
  cases request with
  | create name entry priority resources =>
      rcases Operation.yields_map.mp run with ⟨reply, done, rfl⟩
      rcases yields_onTable.mp done with ⟨table, created, rfl⟩
      rw [Lineup.answer, create_lineup lined created]
      rfl
  | exit code =>
      rcases Operation.yields_map.mp run with ⟨reply, done, rfl⟩
      rcases yields_onTable.mp done with ⟨table, exited, rfl⟩
      rw [Lineup.answer, exit_lineup lined exited]
      rfl
  | reset timeSlice =>
      rcases Operation.yields_map.mp run with ⟨_, done, rfl⟩
      rcases yields_onTable.mp done with ⟨table, emptied, rfl⟩
      rcases Operation.yields_set.mp emptied with rfl
      rfl
  | schedule =>
      rcases Operation.yields_map.mp run with ⟨plan, decided, rfl⟩
      rw [Lineup.answer, schedule_lineup lined decided]
      rfl
  | tick =>
      rcases Operation.yields_map.mp run with ⟨plan, decided, rfl⟩
      rw [Lineup.answer, tick_lineup lined decided]
      rfl
  | yield =>
      rcases Operation.yields_map.mp run with ⟨plan, decided, rfl⟩
      rw [Lineup.answer, yield_lineup lined decided]
      rfl
  | sleep milliseconds =>
      rcases Operation.yields_map.mp run with ⟨plan, decided, rfl⟩
      rw [Lineup.answer, sleep_lineup lined decided]
      rfl

/-- What is left of a tick can be done if the time that the process has had can be counted. -/
theorem charges_of_sum (lined : before.table.Lined slots)
    (sums : ∀ slot, before.table.current = some slot →
      ∃ totalTicks, Checked.add64 (before.table.process slot).totalTicks 1 = .ok totalTicks) :
    ∃ plan after, before.Charges plan after := by
  cases isCurrent : before.table.current with
  | none => exact ⟨none, before, by simp only [Charges, isCurrent, and_self]⟩
  | some slot =>
      rcases sums slot isCurrent with ⟨totalTicks, sum⟩
      simp only [Charges, isCurrent]
      by_cases more : 1 < (before.table.process slot).timeSlice
      · simp only [if_pos more]
        exact ⟨none, _, totalTicks, sum, rfl, rfl⟩
      · simp only [if_neg more]
        have inner := ProcessRecord.inner_renew totalTicks before.scheduler.config.timeSliceTicks
        have charged := lined.update (lined.mem_of_current isCurrent) inner
        have decided : ∃ plan after, schedule.Yields
            { before with
              table := before.table.update slot fun process => ProcessRecord.demote
                { process with totalTicks, timeSlice := before.scheduler.config.timeSliceTicks } }
            plan after := yields_schedule charged.toLinked
        rcases decided with ⟨plan, after, run⟩
        exact ⟨plan, after, totalTicks, sum, run⟩

theorem charge_stops (lined : before.table.Lined slots)
    (stops : ∀ plan after, ¬before.Charges plan after) :
    before.lineup.charge = .error .addOverflow := by
  have fails : ∃ slot, before.table.current = some slot ∧
      ∃ fault, Checked.add64 (before.table.process slot).totalTicks 1 = .error fault := by
    -- Else what is left of the tick can be done.
    apply Classical.byContradiction
    intro none_fails
    have sums : ∀ slot, before.table.current = some slot →
        ∃ totalTicks, Checked.add64 (before.table.process slot).totalTicks 1 = .ok totalTicks := by
      intro slot isCurrent
      cases sum : Checked.add64 (before.table.process slot).totalTicks 1 with
      | error fault => exact absurd ⟨slot, isCurrent, fault, sum⟩ none_fails
      | ok totalTicks => exact ⟨totalTicks, rfl⟩
    rcases charges_of_sum lined sums with ⟨plan, after, charges⟩
    exact stops plan after charges
  rcases fails with ⟨slot, isCurrent, fault, sum⟩
  have sumBare : Checked.add64 (before.table.process slot).bare.totalTicks 1 = .error fault := sum
  rw [Lineup.charge, find?_current lined isCurrent]
  simp only [sumBare, Checked.add64_eq_error sum]
  rfl

theorem tick_stops (lined : before.table.Lined slots)
    (stops : ∀ plan after, ¬Dispatcher.tick.Yields before plan after) :
    before.lineup.tick = .error .addOverflow := by
  have clock : before.lineup.scheduler = before.scheduler := rfl
  rw [Lineup.tick, clock]
  cases sum : Checked.add64 before.scheduler.ticks 1 with
  | error fault =>
      rw [Checked.add64_eq_error sum]
      rfl
  | ok ticks =>
      have stopped := charge_stops (lined.steady (steady_roused before ticks))
        fun plan after charges => stops plan after (yields_tick_iff.mpr ⟨ticks, sum, charges⟩)
      rw [lineup_roused lined] at stopped
      exact stopped

theorem sleep_stops {milliseconds : UInt32} (lined : before.table.Lined slots)
    (stops : ∀ plan after, ¬(Dispatcher.sleep milliseconds).Yields before plan after) :
    before.lineup.sleep milliseconds = .error .addOverflow := by
  have clock : before.lineup.scheduler = before.scheduler := rfl
  have late : ¬before.scheduler.ticks.toNat +
      (before.scheduler.ticksOfMilliseconds milliseconds).toNat < UInt64.size := by
    intro fits
    rcases yields_sleep lined.toLinked fits with ⟨plan, after, run⟩
    exact stops plan after run
  have long : before.scheduler.ticksOfMilliseconds milliseconds ≠ 0 := by
    intro short
    rw [short] at late
    exact late before.scheduler.ticks.toNat_lt
  rw [Lineup.sleep, clock, if_neg long, Checked.add64, if_neg late]
  rfl

/-- Requests other than those that add up ticks are always answered. -/
theorem Request.act_runs (request : Request) (housed : before.Housed) (notTick : request ≠ .tick)
    (notSleep : ∀ milliseconds, request ≠ .sleep milliseconds) :
    ∃ reply after, request.act.Yields before reply after := by
  rcases housed.queued with ⟨slots, queued⟩
  cases request with
  | create name entry priority resources =>
      rcases yields_create before.table name entry priority resources with ⟨reply, table, created⟩
      exact ⟨_, _, Operation.yields_map.mpr
        ⟨reply, yields_onTable.mpr ⟨table, created, rfl⟩, rfl⟩⟩
  | exit code =>
      rcases queued.yields_exit housed.currentLive code with ⟨reply, table, exited⟩
      exact ⟨_, _, Operation.yields_map.mpr
        ⟨reply, yields_onTable.mpr ⟨table, exited, rfl⟩, rfl⟩⟩
  | reset timeSlice =>
      exact ⟨_, _, Operation.yields_map.mpr
        ⟨(), yields_onTable.mpr ⟨_, Operation.yields_set.mpr rfl, rfl⟩, rfl⟩⟩
  | schedule =>
      rcases yields_schedule queued.toLinked with ⟨plan, after, run⟩
      exact ⟨_, _, Operation.yields_map.mpr ⟨plan, run, rfl⟩⟩
  | yield =>
      rcases yields_yield queued.toLinked with ⟨plan, after, run⟩
      exact ⟨_, _, Operation.yields_map.mpr ⟨plan, run, rfl⟩⟩
  | tick => exact absurd rfl notTick
  | sleep milliseconds => exact absurd rfl (notSleep milliseconds)

/-- A request is always answered, unless a sum of ticks does not fit. -/
theorem Request.act_ends (request : Request) (housed : before.Housed) :
    request.act.Ends before := by
  rcases housed.queued with ⟨slots, queued⟩
  cases request with
  | tick => exact Operation.ends_map (ends_tick queued.toLinked)
  | sleep milliseconds => exact Operation.ends_map (ends_sleep queued.toLinked milliseconds)
  | _ => exact Or.inl (Request.act_runs _ housed (by simp) (by simp))

/-- A request that is not answered is not answered without slots either. -/
theorem Request.act_stops (request : Request) (housed : before.Housed)
    (stops : ¬∃ reply after, request.act.Yields before reply after) :
    before.lineup.answer request = .error .addOverflow := by
  rcases housed.lined with ⟨slots, lined⟩
  cases request with
  | tick =>
      have stopped := tick_stops lined fun plan after run =>
        stops ⟨_, _, Operation.yields_map.mpr ⟨plan, run, rfl⟩⟩
      rw [Lineup.answer, stopped]
      rfl
  | sleep milliseconds =>
      have stopped := sleep_stops lined fun plan after run =>
        stops ⟨_, _, Operation.yields_map.mpr ⟨plan, run, rfl⟩⟩
      rw [Lineup.answer, stopped]
      rfl
  | _ => exact absurd (Request.act_runs _ housed (by simp) (by simp)) stops

/-- What comes of a request can be computed without slots. -/
theorem Request.act_seen (request : Request) (housed : dispatcher.Housed) :
    ((request.act dispatcher).map fun outcome => (outcome.value.bare, outcome.state.lineup)) =
      dispatcher.lineup.answer request := by
  rcases housed.lined with ⟨slots, lined⟩
  cases ended : request.act dispatcher with
  | ok outcome => exact (request.act_lineup lined ⟨outcome.effects, ended⟩).symm
  | error fault =>
      rw [(request.act_ends housed).fault ended, request.act_stops housed]
      · rfl
      · rintro ⟨reply, after, effects, run⟩
        rw [ended] at run
        cases run

/-- What comes of a list of requests can be computed without slots. -/
theorem results_lineup (requests : List Request) (housed : dispatcher.Housed) :
    results requests dispatcher = dispatcher.lineup.results requests := by
  induction requests generalizing dispatcher with
  | nil => rfl
  | cons request rest ih =>
      have seen := request.act_seen housed
      rw [results, serve, Operation.bind_apply, Lineup.results, ← seen]
      cases ended : request.act dispatcher with
      | error fault => rfl
      | ok outcome =>
          have onward := ih (request.act_housed housed ⟨outcome.effects, ended⟩)
          rw [results] at onward
          simp only [bind, Except.bind, Except.map, Operation.bind]
          rw [← onward]
          cases rested : serve rest outcome.state with
          | error fault => rfl
          | ok final => rfl

/-- What calls lead to from an empty table on. -/
theorem housed_of_calls {timeSlice : UInt32} {scheduler : Scheduler} {calls : List Call}
    (run : (calls.forM fun call => discard call.act).Yields ⟨.empty timeSlice, scheduler⟩ ()
      after) : after.Housed := by
  refine run.keeps ?_ (housed_empty timeSlice scheduler)
  intro call start final housed step
  rcases Operation.yields_map.mp step with ⟨plan, done, -⟩
  exact call.act_housed housed done

/-- Two dispatchers that have the same processes on the queue, in the same order and apart from
their slots, and the same process has the processor, and the counters and settings are the same:
whatever is asked of both, they answer alike but for slots, and stay alike. -/
theorem results_eq_of_lineup {timeSlice other : UInt32} {scheduler another : Scheduler}
    {calls others : List Call} {left right : Dispatcher}
    (leftRun : (calls.forM fun call => discard call.act).Yields ⟨.empty timeSlice, scheduler⟩ ()
      left)
    (rightRun : (others.forM fun call => discard call.act).Yields ⟨.empty other, another⟩ () right)
    (same : left.lineup = right.lineup) (requests : List Request) :
    results requests left = results requests right := by
  rw [results_lineup requests (housed_of_calls leftRun),
    results_lineup requests (housed_of_calls rightRun), same]

/-- In one of two dispatchers, a slot has been used again. -/
theorem results_eq_in_other_slots :
    ∃ left right,
      (([.create "a" 0x1000 5 {}, .create "b" 0x2000 1 {}, .schedule, .exit 0,
        .create "c" 0x3000 1 {}] : List Call).forM fun call => discard call.act).Yields
          ⟨.empty 10, {}⟩ () left ∧
      (([.create "a" 0x1000 5 {}, .create "b" 0x2000 1 {}, .create "c" 0x3000 1 {}, .schedule,
        .exit 0] : List Call).forM fun call => discard call.act).Yields
          ⟨.empty 10, {}⟩ () right ∧
      left.lineup = right.lineup ∧ left.table.queue = [1, 0] ∧ right.table.queue = [1, 2] ∧
      ∀ requests, results requests left = results requests right := by
  let lineup : Lineup :=
    { line := [.fresh ⟨2⟩ "b" 0x2000 1 10 {}, .fresh ⟨3⟩ "c" 0x3000 1 10 {}]
      current := none
      nextPid := 4
      timeSlice := 10
      scheduler := {} }
  rcases Operation.yields_of_evaluation
      (([.create "a" 0x1000 5 {}, .create "b" 0x2000 1 {}, .schedule, .exit 0,
        .create "c" 0x3000 1 {}] : List Call).forM fun call => discard call.act)
      ⟨.empty 10, {}⟩ (fun _ left => left.lineup = lineup ∧ left.table.queue = [1, 0])
      (by decide +kernel) with ⟨_, left, leftRun, isLeft⟩
  rcases Operation.yields_of_evaluation
      (([.create "a" 0x1000 5 {}, .create "b" 0x2000 1 {}, .create "c" 0x3000 1 {}, .schedule,
        .exit 0] : List Call).forM fun call => discard call.act)
      ⟨.empty 10, {}⟩ (fun _ right => right.lineup = lineup ∧ right.table.queue = [1, 2])
      (by decide +kernel) with ⟨_, right, rightRun, isRight⟩
  rcases of_decide_eq_true isLeft with ⟨leftLineup, leftQueue⟩
  rcases of_decide_eq_true isRight with ⟨rightLineup, rightQueue⟩
  have same : left.lineup = right.lineup := leftLineup.trans rightLineup.symm
  exact ⟨left, right, leftRun, rightRun, same, leftQueue, rightQueue,
    results_eq_of_lineup leftRun rightRun same⟩

end Requests

end Dispatcher

end KernelCore
