import KernelCore.Proofs.ProcessTable.Loose
import KernelCore.Proofs.Scheduler.Placement

/-!
# The queue in order of creation

A `Register` keeps what processes were when they were created: all of them since the table was last
reset, and those that have not ended. Whatever is asked of the processes and the scheduler, the
links lead through the slots of the live processes in the order of the register, and there is no
other link. Ids are counted up from one as long as there are unused ones.
-/

namespace KernelCore

open ProcessTable Dispatcher

section Except

variable {Given Value : Type} {given : Except Fault Given} {value : Value}

theorem ok_of_bind {next : Given → Except Fault Value} (ok : (given >>= next) = .ok value) :
    ∃ answer, given = .ok answer ∧ next answer = .ok value := by
  cases given with
  | error fault => cases ok
  | ok answer => exact ⟨answer, rfl, ok⟩

theorem ok_of_map {change : Given → Value} (ok : given.map change = .ok value) :
    ∃ answer, given = .ok answer ∧ change answer = value := by
  cases given with
  | error fault => cases ok
  | ok answer => exact ⟨answer, rfl, Except.ok.inj ok⟩

end Except

/-- What a process was when it was created, apart from its first turn. -/
def ProcessRecord.origin (process : ProcessRecord) : ProcessRecord :=
  { process with state := .ready, timeSlice := 0, totalTicks := 0, wakeAt := none, next := none }

/-- Processes in the order of their creation, as they were created. -/
structure Register where
  /-- All that were created since the table was last reset. -/
  made : List ProcessRecord
  /-- Those that have not ended. -/
  live : List ProcessRecord

namespace Register

def empty : Register :=
  { made := [], live := [] }

/-- Keeps account of the answer to a request. -/
def note {Plan : Type} (register : Register) : Request → Reply Plan → Register
  | .create name entry priority resources, .created (.ok pid) =>
      let process := .fresh pid name entry priority 0 resources
      { made := register.made ++ [process], live := register.live ++ [process] }
  | .exit _, .exited (some process) =>
      { register with live := register.live.filter fun other => other.pid ≠ process.pid }
  | .reset _, _ => empty
  | _, _ => register

/-- The processes of a lineup are those of the register, and ids are counted up. -/
structure Describes (register : Register) (lineup : Lineup) : Prop where
  line : lineup.line.map ProcessRecord.origin = register.live
  sublist : register.live.Sublist register.made
  nonzero : ∀ process ∈ register.made, process.pid.word ≠ 0
  numbered : register.made.length < 2 ^ 32 →
    register.made.map (·.pid.word.toNat) = List.range' 1 register.made.length
  start : lineup.nextPid ≠ 0
  counter : register.made.length + 1 < 2 ^ 32 → lineup.nextPid.toNat = register.made.length + 1

end Register

namespace Lineup

/-- The processes are what they were when they were created, and none has come or gone. -/
structure Alike (before after : Lineup) : Prop where
  origins : after.line.map ProcessRecord.origin = before.line.map ProcessRecord.origin
  nextPid : after.nextPid = before.nextPid

section Alike

variable {before between after lineup : Lineup}

theorem Alike.refl (lineup : Lineup) : Alike lineup lineup :=
  ⟨rfl, rfl⟩

theorem Alike.trans (first : Alike before between) (second : Alike between after) :
    Alike before after :=
  ⟨second.origins.trans first.origins, second.nextPid.trans first.nextPid⟩

theorem alike_change (lineup : Lineup) (pid : Pid) {how : ProcessRecord → ProcessRecord}
    (same : ∀ process, (how process).origin = process.origin) :
    Alike lineup (lineup.change pid how) where
  origins := by
    rw [change, List.map_map]
    apply List.map_congr_left
    intro process _
    rw [Function.comp_apply]
    split
    · exact same process
    · rfl
  nextPid := rfl

theorem origin_demote (process : ProcessRecord) : process.demote.origin = process.origin :=
  ProcessRecord.same_demote ProcessRecord.origin (fun _ _ => rfl) process

theorem alike_relieve (lineup : Lineup) : Alike lineup lineup.relieve := by
  rw [relieve]
  split
  · exact alike_change lineup _ origin_demote
  · exact .refl lineup

theorem alike_grant (lineup : Lineup) (pid : Pid) (timeSlice : UInt32) :
    Alike lineup (lineup.grant pid timeSlice) := by
  have granted := (alike_relieve lineup).trans (alike_change lineup.relieve pid
    fun process => show ({ process with state := .running, timeSlice } : ProcessRecord).origin =
      process.origin from rfl)
  exact ⟨granted.origins, granted.nextPid⟩

theorem alike_schedule (lineup : Lineup) : Alike lineup lineup.schedule.2 := by
  rw [schedule]
  split
  · exact .refl lineup
  · split
    · exact alike_change lineup _ fun _ => rfl
    · exact alike_grant lineup _ _

theorem alike_yield (lineup : Lineup) : Alike lineup lineup.yield.2 :=
  (alike_relieve lineup).trans (alike_schedule lineup.relieve)

theorem alike_of_ok {answer : Option Handoff × Lineup} {plan : Option Handoff}
    (answered : (.ok answer : Except Fault (Option Handoff × Lineup)) = .ok (plan, after))
    (alike : Alike lineup answer.2) : Alike lineup after := by
  cases answered
  exact alike

theorem alike_sleep {milliseconds : UInt32} {plan : Option Handoff}
    (slept : lineup.sleep milliseconds = .ok (plan, after)) : Alike lineup after := by
  rw [sleep] at slept
  split at slept
  · exact alike_of_ok slept (alike_yield lineup)
  · rcases ok_of_bind slept with ⟨wakeAt, -, slept⟩
    split at slept
    · exact alike_of_ok slept (.refl lineup)
    · rename_i pid _
      have dozes : Alike lineup (lineup.change pid (·.doze wakeAt)) :=
        alike_change lineup pid fun _ => rfl
      exact alike_of_ok slept (dozes.trans (alike_schedule _))

theorem alike_roused (lineup : Lineup) (ticks : UInt64) : Alike lineup (lineup.roused ticks) where
  origins := by
    rw [roused, List.map_map]
    apply List.map_congr_left
    intro process _
    exact ProcessRecord.same_rouse ProcessRecord.origin (fun _ _ _ => rfl) process ticks
  nextPid := rfl

theorem alike_charge {plan : Option Handoff} (charged : lineup.charge = .ok (plan, after)) :
    Alike lineup after := by
  rw [charge] at charged
  split at charged
  · exact alike_of_ok charged (.refl lineup)
  · rcases ok_of_bind charged with ⟨totalTicks, -, charged⟩
    split at charged
    · exact alike_of_ok charged (alike_change lineup _ fun _ => rfl)
    · refine alike_of_ok charged ((alike_change lineup _ fun other => ?_).trans
        (alike_schedule _))
      exact origin_demote { other with
        totalTicks, timeSlice := lineup.scheduler.config.timeSliceTicks }

theorem alike_tick {plan : Option Handoff} (ticked : lineup.tick = .ok (plan, after)) :
    Alike lineup after := by
  rw [tick] at ticked
  rcases ok_of_bind ticked with ⟨ticks, -, charged⟩
  exact (alike_roused lineup ticks).trans (alike_charge charged)

end Alike

section Ids

variable {lineup : Lineup} {tries : Nat} {candidate next : UInt32} {pid : Pid}

theorem searchPid_nonzero (start : candidate ≠ 0)
    (found : lineup.searchPid tries candidate = some (pid, next)) : pid.word ≠ 0 ∧ next ≠ 0 := by
  induction tries generalizing candidate with
  | zero => cases found
  | succ tries ih =>
      rw [searchPid] at found
      split at found
      · cases found
        exact ⟨start, successor_ne_zero candidate⟩
      · exact ih (successor_ne_zero candidate) found

/-- If nobody has the first id, it is the one that is found. -/
theorem searchPid_first (unused : ∀ process ∈ lineup.line, process.pid ≠ ⟨candidate⟩)
    (found : lineup.searchPid (tries + 1) candidate = some (pid, next)) :
    pid = ⟨candidate⟩ ∧ next = successor candidate := by
  have nobody : lineup.find? ⟨candidate⟩ = none := by
    rw [find?, List.find?_eq_none]
    intro process mem
    simpa using unused process mem
  rw [searchPid, if_pos nobody] at found
  cases found
  exact ⟨rfl, rfl⟩

end Ids

end Lineup

namespace Register

section Describes

variable {register : Register} {before after lineup : Lineup}

theorem Describes.alike (describes : register.Describes before) (alike : before.Alike after) :
    register.Describes after where
  line := alike.origins.trans describes.line
  sublist := describes.sublist
  nonzero := describes.nonzero
  numbered := describes.numbered
  start := alike.nextPid ▸ describes.start
  counter few := (congrArg UInt32.toNat alike.nextPid).trans (describes.counter few)

theorem describes_empty (timeSlice : UInt32) (scheduler : Scheduler) :
    empty.Describes (.empty timeSlice scheduler) where
  line := rfl
  sublist := List.Sublist.refl []
  nonzero _ mem := absurd mem List.not_mem_nil
  numbered _ := rfl
  start := by simp [Lineup.empty]
  counter _ := rfl

/-- Before ids start over, nobody has the id that comes next. -/
theorem Describes.unused (describes : register.Describes lineup)
    (few : register.made.length + 1 < 2 ^ 32) {process : ProcessRecord}
    (mem : process ∈ lineup.line) : process.pid ≠ ⟨lineup.nextPid⟩ := by
  intro same
  have listed : process.origin ∈ register.made := by
    apply describes.sublist.subset
    rw [← describes.line]
    exact List.mem_map_of_mem mem
  have known : process.pid.word.toNat ∈ register.made.map (·.pid.word.toNat) :=
    List.mem_map.mpr ⟨process.origin, listed, rfl⟩
  rw [describes.numbered (Nat.lt_of_succ_lt few), List.mem_range'_1, same,
    describes.counter few] at known
  omega

/-- A process that is created comes last, under the id that comes next. -/
theorem Describes.created (describes : register.Describes before) {name : String}
    {entry priority : UInt32} {resources : ProcessResources} {pid : Pid} {nextPid : UInt32}
    (searched : before.searchPid (Layout.maxProcesses + 1) before.nextPid = some (pid, nextPid)) :
    ({ made := register.made ++ [.fresh pid name entry priority 0 resources]
       live := register.live ++ [.fresh pid name entry priority 0 resources] } :
      Register).Describes
      { before with
        line := before.line ++ [.fresh pid name entry priority before.timeSlice resources]
        nextPid } := by
  rcases Lineup.searchPid_nonzero describes.start searched with ⟨nonzero, start⟩
  have first : register.made.length + 1 < 2 ^ 32 →
      pid = ⟨before.nextPid⟩ ∧ nextPid = successor before.nextPid :=
    fun few => Lineup.searchPid_first (fun _ => describes.unused few) searched
  refine ⟨?_, describes.sublist.append (List.Sublist.refl _), ?_, ?_, start, ?_⟩
  · rw [List.map_append, describes.line]
    rfl
  · intro process mem
    rcases List.mem_append.mp mem with old | new
    · exact describes.nonzero process old
    · rw [List.mem_singleton.mp new]
      exact nonzero
  · intro few
    rw [List.length_append, List.length_singleton] at few ⊢
    rw [List.map_append, describes.numbered (Nat.lt_of_succ_lt few), List.range'_concat,
      List.map_singleton, (first few).1]
    change _ ++ [before.nextPid.toNat] = _
    rw [describes.counter few, Nat.one_mul, Nat.add_comm]
  · intro few
    rw [List.length_append, List.length_singleton] at few ⊢
    have counter := describes.counter (Nat.lt_of_succ_lt few)
    change nextPid.toNat = _
    rw [(first (Nat.lt_of_succ_lt few)).2, toNat_successor (by omega), counter]

/-- A process that ends leaves the register. -/
theorem Describes.left (describes : register.Describes before) (pid : Pid) :
    ({ register with live := register.live.filter fun other => other.pid ≠ pid } :
      Register).Describes
      { before with
        line := before.line.filter fun other => other.pid ≠ pid
        current := none } where
  line := by
    rw [← describes.line, List.filter_map]
    rfl
  sublist := List.filter_sublist.trans describes.sublist
  nonzero := describes.nonzero
  numbered := describes.numbered
  start := describes.start
  counter := describes.counter

theorem Describes.create (describes : register.Describes before) {name : String}
    {entry priority : UInt32} {resources : ProcessResources} {reply : Except ProcessError Pid}
    (created : before.create name entry priority resources = .ok (reply, after)) :
    (register.note (.create name entry priority resources)
      (.created reply : Reply Handoff)).Describes after := by
  rw [Lineup.create] at created
  split at created
  · cases created
    exact describes
  · split at created
    · cases created
    · rename_i pid nextPid searched
      cases created
      exact describes.created searched

theorem Describes.exit (describes : register.Describes before) (code : Int32) :
    (register.note (.exit code) (.exited before.exit.1 : Reply Handoff)).Describes
      before.exit.2 := by
  rw [Lineup.exit]
  split
  · exact describes
  · rename_i process found
    exact describes.left process.pid

/-- Whatever is answered to a request, the register goes on describing the processes. -/
theorem Describes.answer (describes : register.Describes before) {request : Request}
    {reply : Reply Handoff} (answered : before.answer request = .ok (reply, after)) :
    (register.note request reply).Describes after := by
  cases request with
  | create name entry priority resources =>
      rcases ok_of_map answered with ⟨answer, created, same⟩
      cases same
      exact describes.create created
  | exit code =>
      cases answered
      exact describes.exit code
  | reset timeSlice =>
      cases answered
      exact describes_empty timeSlice before.scheduler
  | schedule =>
      cases answered
      exact describes.alike (Lineup.alike_schedule before)
  | tick =>
      rcases ok_of_map answered with ⟨answer, ticked, same⟩
      cases same
      exact describes.alike (Lineup.alike_tick ticked)
  | yield =>
      cases answered
      exact describes.alike (Lineup.alike_yield before)
  | sleep milliseconds =>
      rcases ok_of_map answered with ⟨answer, slept, same⟩
      cases same
      exact describes.alike (Lineup.alike_sleep slept)

/-- The register does not look at slots. -/
theorem note_bare (register : Register) (request : Request) (reply : Reply Switch) :
    register.note request reply.bare = register.note request reply := by
  cases reply with
  | created reply =>
      cases reply with
      | error cause => cases request <;> rfl
      | ok pid => cases request <;> rfl
  | exited process =>
      cases process with
      | none => cases request <;> rfl
      | some process => cases request <;> rfl
  | cleared => cases request <;> rfl
  | planned plan => cases request <;> rfl

end Describes

end Register

/-- Processes and the scheduler, and the register that is kept of the processes. -/
structure Registry where
  dispatcher : Dispatcher
  register : Register

namespace Registry

def onDispatcher {Value : Type} (action : Operation Dispatcher Value) : Operation Registry Value :=
  action.within (fun ⟨dispatcher, register⟩ => (dispatcher, register)) Registry.mk

/-- Serves a request and keeps account of it. -/
def serve (request : Request) : Operation Registry Unit := do
  let reply ← onDispatcher request.act
  modify fun registry => { registry with register := registry.register.note request reply }

/-- The links lead through the given slots, which are those of the live processes in the order of
the register, and there are no other links. -/
structure InOrder (registry : Registry) (slots : List Slot) : Prop where
  path : registry.dispatcher.table.Path registry.dispatcher.table.queueHead slots none
  queue : registry.dispatcher.table.queue = slots
  once : slots.Nodup
  live : ∀ slot, slot ∈ slots ↔ (registry.dispatcher.table.process slot).isLive = true
  line : slots.map (fun slot => (registry.dispatcher.table.process slot).origin) =
    registry.register.live
  sublist : registry.register.live.Sublist registry.register.made
  head : registry.dispatcher.table.queueHead = none ↔
    ∀ slot, (registry.dispatcher.table.process slot).isLive = false
  tail : registry.dispatcher.table.queueTail = none ↔
    ∀ slot, (registry.dispatcher.table.process slot).isLive = false
  last : ∀ slot, registry.dispatcher.table.queueTail = some slot →
    slots.getLast? = some slot ∧ (registry.dispatcher.table.process slot).next = none
  loose : ∀ slot, slot ∉ slots → (registry.dispatcher.table.process slot).next = none
  distinct : (slots.map fun slot => (registry.dispatcher.table.process slot).pid).Nodup
  nonzero : ∀ slot ∈ slots, (registry.dispatcher.table.process slot).pid.word ≠ 0
  increasing : registry.register.made.length < 2 ^ 32 →
    (slots.map fun slot => (registry.dispatcher.table.process slot).pid.word).Pairwise (· < ·)
  numbered : registry.register.made.length < 2 ^ 32 →
    registry.register.made.map (·.pid.word.toNat) = List.range' 1 registry.register.made.length
  found : ∀ pid, (registry.dispatcher.table.find? pid).map ProcessRecord.origin =
    registry.register.live.find? fun process => process.pid == pid

/-- The dispatcher is sound, and the register is kept right. -/
structure Kept (registry : Registry) : Prop where
  housed : registry.dispatcher.Housed
  loose : registry.dispatcher.table.Loose
  describes : registry.register.Describes registry.dispatcher.lineup

section Registry

variable {before after registry : Registry} {request : Request}

theorem loose_of_scheduled {start final : Dispatcher} {plan : Option Switch}
    (loose : start.table.Loose) (scheduled : start.Scheduled final plan) : final.table.Loose :=
  loose.congr scheduled.occupant scheduled.queue

theorem loose_of_act {start final : Dispatcher} {reply : Reply Switch} (housed : start.Housed)
    (loose : start.table.Loose) (run : request.act.Yields start reply final) :
    final.table.Loose := by
  rcases housed.queued with ⟨slots, queued⟩
  cases request with
  | create name entry priority resources =>
      rcases Operation.yields_map.mp run with ⟨_, done, -⟩
      rcases yields_onTable.mp done with ⟨table, created, rfl⟩
      exact loose.create queued created
  | exit code =>
      rcases Operation.yields_map.mp run with ⟨_, done, -⟩
      rcases yields_onTable.mp done with ⟨table, exited, rfl⟩
      exact loose.exit queued housed.currentLive exited
  | reset timeSlice =>
      rcases Operation.yields_map.mp run with ⟨_, done, -⟩
      rcases yields_onTable.mp done with ⟨table, emptied, rfl⟩
      rcases Operation.yields_set.mp emptied with rfl
      exact loose_empty timeSlice
  | schedule =>
      rcases Operation.yields_map.mp run with ⟨plan, decided, -⟩
      exact loose_of_scheduled loose (schedule_scheduled housed.currentLive decided)
  | tick =>
      rcases Operation.yields_map.mp run with ⟨plan, decided, -⟩
      exact loose_of_scheduled loose (tick_scheduled housed.currentLive decided)
  | yield =>
      rcases Operation.yields_map.mp run with ⟨plan, decided, -⟩
      exact loose_of_scheduled loose (yield_scheduled housed.currentLive decided)
  | sleep milliseconds =>
      rcases Operation.yields_map.mp run with ⟨plan, decided, -⟩
      exact loose_of_scheduled loose (sleep_scheduled housed.currentLive decided)

theorem kept_empty (timeSlice : UInt32) (scheduler : Scheduler) :
    Kept ⟨⟨.empty timeSlice, scheduler⟩, .empty⟩ where
  housed := housed_empty timeSlice scheduler
  loose := loose_empty timeSlice
  describes := Register.describes_empty timeSlice scheduler

/-- Each request keeps the register right. -/
theorem serve_kept (request : Request) (kept : before.Kept)
    (run : (serve request).Yields before () after) : after.Kept := by
  rcases Operation.yields_bind.mp run with ⟨reply, between, done, noted⟩
  rcases Operation.yields_within.mp done with ⟨dispatcher, acted, rfl⟩
  rcases Operation.yields_modify.mp noted with rfl
  rcases kept.housed.lined with ⟨slots, lined⟩
  have answered := request.act_lineup lined acted
  refine ⟨request.act_housed kept.housed acted, loose_of_act kept.housed kept.loose acted, ?_⟩
  -- The reply can be computed from the lineup, and the register follows the lineup.
  have described := kept.describes.answer answered
  rw [Register.note_bare] at described
  exact described

theorem Kept.line (kept : registry.Kept) {slots : List Slot}
    (lined : registry.dispatcher.table.Lined slots) :
    slots.map (fun slot => (registry.dispatcher.table.process slot).origin) =
      registry.register.live := by
  rw [← kept.describes.line, lineup_eq _ lined, ProcessTable.line, List.map_map]
  rfl

/-- As long as ids are counted up, those on the queue are in order. -/
theorem Kept.increasing (kept : registry.Kept) {slots : List Slot}
    (lined : registry.dispatcher.table.Lined slots)
    (few : registry.register.made.length < 2 ^ 32) :
    (slots.map fun slot => (registry.dispatcher.table.process slot).pid.word).Pairwise
      (· < ·) := by
  have counted : (registry.register.made.map (·.pid.word.toNat)).Pairwise (· < ·) := by
    rw [kept.describes.numbered few]
    exact List.pairwise_lt_range'
  have onQueue := counted.sublist (kept.describes.sublist.map (·.pid.word.toNat))
  rw [← kept.line lined, List.map_map, List.pairwise_map] at onQueue
  rw [List.pairwise_map]
  exact onQueue.imp UInt32.lt_iff_toNat_lt.mpr

theorem Kept.found (kept : registry.Kept) (pid : Pid) :
    (registry.dispatcher.table.find? pid).map ProcessRecord.origin =
      registry.register.live.find? fun process => process.pid == pid := by
  rcases kept.housed.lined with ⟨slots, lined⟩
  have known := find?_lineup lined pid
  rw [Lineup.find?] at known
  rw [← kept.describes.line, List.find?_map]
  change _ = (registry.dispatcher.lineup.line.find? fun process => process.pid == pid).map
    ProcessRecord.origin
  rw [known, Option.map_map]
  rfl

theorem Kept.inOrder (kept : registry.Kept) : ∃ slots, registry.InOrder slots := by
  rcases kept.housed.lined with ⟨slots, lined⟩
  have live : ∀ slot, slot ∈ slots ↔ (registry.dispatcher.table.process slot).isLive = true :=
    fun _ => ⟨lined.isLive, lined.mem⟩
  have nobody : slots = [] ↔ ∀ slot, (registry.dispatcher.table.process slot).isLive = false := by
    simp only [List.eq_nil_iff_forall_not_mem, live, Bool.not_eq_true]
  refine ⟨slots, lined.path, lined.queue_eq, lined.distinct, live, kept.line lined,
    kept.describes.sublist, ?_, ?_, ?_, ?_, ?_, ?_, kept.increasing lined,
    kept.describes.numbered, kept.found⟩
  · rw [← nobody, lined.toLinked.head_eq_none]
  · rw [← nobody, lined.last, List.getLast?_eq_none_iff]
  · intro slot isLast
    rw [lined.last] at isLast
    exact ⟨isLast, lined.toLinked.next_last isLast⟩
  · intro slot off
    apply kept.loose
    rw [lined.live, not_not] at off
    exact off
  · refine List.Nodup.map_on ?_ lined.distinct
    intro slot mem other also same
    exact (lined.pid_eq_iff mem also).mp same
  · intro slot mem
    have listed : (registry.dispatcher.table.process slot).origin ∈ registry.register.live := by
      rw [← kept.line lined]
      exact List.mem_map_of_mem mem
    exact kept.describes.nonzero (registry.dispatcher.table.process slot).origin
      (kept.describes.sublist.subset listed)

/-- Whatever is asked of the processes and the scheduler, from an empty table on. -/
theorem inOrder_of_requests {timeSlice : UInt32} {scheduler : Scheduler} {requests : List Request}
    (run : (requests.forM serve).Yields ⟨⟨.empty timeSlice, scheduler⟩, .empty⟩ () registry) :
    ∃ slots, registry.InOrder slots := by
  have kept : registry.Kept :=
    run.keeps (fun request _ _ kept step => serve_kept request kept step)
      (kept_empty timeSlice scheduler)
  exact kept.inOrder

/-- The first slot has been used again, so the second one comes first. -/
theorem inOrder_after_exit :
    ∃ registry,
      (([.create "a" 0x1000 5 {}, .create "b" 0x2000 1 {}, .schedule, .exit 0,
        .create "c" 0x3000 1 {}, .tick] : List Request).forM serve).Yields
          ⟨⟨.empty 10, {}⟩, .empty⟩ () registry ∧
      registry.InOrder [1, 0] ∧ registry.register.made.length = 3 := by
  rcases Operation.yields_of_evaluation
      (([.create "a" 0x1000 5 {}, .create "b" 0x2000 1 {}, .schedule, .exit 0,
        .create "c" 0x3000 1 {}, .tick] : List Request).forM serve)
      ⟨⟨.empty 10, {}⟩, .empty⟩
      (fun _ registry => registry.dispatcher.table.queue = [1, 0] ∧
        registry.register.made.length = 3)
      (by decide +kernel) with ⟨_, registry, run, evaluated⟩
  rcases of_decide_eq_true evaluated with ⟨queue, made⟩
  rcases inOrder_of_requests run with ⟨slots, inOrder⟩
  cases inOrder.queue.symm.trans queue
  exact ⟨registry, run, inOrder, made⟩

end Registry

end Registry

end KernelCore
