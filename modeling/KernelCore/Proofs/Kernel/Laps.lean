import KernelCore.Proofs.Kernel.Reached

/-!
# Processes that come and go

In a lap, a process is created while only the idle process is there, gets the processor, and ends.
The idle process then has the processor again, and all is as it was before, but for the clock and
the next id, which is one more. So any number of laps can follow each other, and every id comes up.
-/

namespace KernelCore

open ProcessTable

namespace ProcessTable

/-- The idle process is alone, and the next id has not been used yet. -/
structure Lonely (table : ProcessTable) (idle : Pid) (home : Slot) (next : Nat) : Prop where
  alone : ∀ slot, (table.process slot).isLive = true → slot = home
  pid : (table.process home).pid = idle
  counter : table.nextPid.toNat = next
  older : idle.word.toNat < next

/-- The idle process is alone and has the processor. -/
structure Rests (table : ProcessTable) (idle : Pid) (home : Slot) (next : Nat) : Prop extends
  Lonely table idle home next where
  running : (table.process home).state = .running
  current : table.current = some home

/-- Besides the idle process there is one other process, which is the last that was created. -/
structure Hosts (table : ProcessTable) (idle : Pid) (home away : Slot) (next : Nat) : Prop where
  differ : away ≠ home
  others : ∀ slot, (table.process slot).isLive = true → slot = home ∨ slot = away
  homePid : (table.process home).pid = idle
  awayPid : (table.process away).pid.word.toNat = next
  counter : table.nextPid.toNat = next + 1
  older : idle.word.toNat < next

section Laps

variable {before after table : ProcessTable} {idle : Pid} {home away slot : Slot} {next : Nat}

theorem Lonely.vacant (lonely : table.Lonely idle home next) (differs : slot ≠ home) :
    (table.process slot).isLive = false := by
  apply Bool.of_not_eq_true
  intro live
  exact differs (lonely.alone slot live)

theorem Lonely.not_full (lonely : table.Lonely idle home next) : table.isFull = false := by
  by_cases first : home = 0
  · have vacant : (table.process 1).isLive = false := lonely.vacant (by rw [first]; decide)
    exact isFull_eq_false_of_vacant vacant
  · exact isFull_eq_false_of_vacant (lonely.vacant (Ne.symm first))

/-- The next process gets the next id. -/
theorem Rests.create (rests : before.Rests idle home next) (few : next + 1 < 2 ^ 32) {name : String}
    {entry priority : UInt32} {resources : ProcessResources} {pid : Pid}
    (run : (create name entry priority resources).Yields before (.ok pid) after) :
    ∃ away, after.Hosts idle home away next ∧ after.current = some home ∧
      (after.process home).state = .running ∧ (after.process away).state = .ready ∧
      (after.process away).pid = pid ∧ (after.process away).resources = resources := by
  have unused : before.slotOf ⟨before.nextPid⟩ = none := by
    rw [slotOf, Vector.findFinIdx?_eq_none_iff]
    intro process mem
    rcases Vector.getElem_of_mem mem with ⟨place, inside, rfl⟩
    simp only [Bool.and_eq_true, beq_iff_eq, not_and]
    intro live same
    have here : (⟨place, inside⟩ : Slot) = home := rests.alone _ live
    have idlePid := rests.pid
    rw [← here] at idlePid
    have older := rests.older
    rw [← idlePid, ← rests.counter] at older
    change (before.process ⟨place, inside⟩).pid = _ at same
    rw [same] at older
    exact absurd older (Nat.lt_irrefl _)
  rcases create_records run with
    ⟨refuted, -⟩ | ⟨away, given, counter, same, vacant, searched, rethreaded⟩
  · cases refuted
  cases same
  rw [searchPid, if_pos unused, Option.some.injEq, Prod.mk.injEq] at searched
  rcases searched with ⟨rfl, rfl⟩
  have apart : away ≠ home := by
    rintro rfl
    simp [ProcessRecord.isLive, rests.running] at vacant
  rcases rethreaded.process_here with ⟨link, awayRecord⟩
  rcases rethreaded.process_elsewhere apart with ⟨homeLink, homeRecord⟩
  have counted : (successor^[1] before.nextPid).toNat = _ := toNat_iterate_successor _ (by decide)
  rw [Function.iterate_one, rests.counter, if_pos few] at counted
  refine ⟨away, ⟨apart, ?_, ?_, ?_, ?_, rests.older⟩, ?_, ?_, ?_, ?_, ?_⟩
  · intro slot live
    by_cases here : away = slot
    · exact Or.inr here.symm
    · rcases rethreaded.process_elsewhere here with ⟨link, record⟩
      rw [record] at live
      exact Or.inl (rests.alone slot live)
  · rw [homeRecord]
    exact rests.pid
  · rw [awayRecord]
    exact rests.counter
  · rw [rethreaded.nextPid]
    exact counted
  · rw [rethreaded.current]
    exact rests.current
  · rw [homeRecord]
    exact rests.running
  · rw [awayRecord]
    rfl
  · rw [awayRecord]
    rfl
  · rw [awayRecord]
    rfl

/-- When the other process ends, the idle process is alone. -/
theorem Hosts.exit (hosts : before.Hosts idle home away next)
    (isCurrent : before.current = some away) (ready : (before.process home).state = .ready)
    {code : Int32} {process : ProcessRecord}
    (run : (exit code).Yields before (some process) after) :
    after.Lonely idle home (next + 1) ∧ after.current = none ∧
      (after.process home).state = .ready ∧
      process.resources = (before.process away).resources := by
  rcases exit_records run with ⟨refuted, -⟩ | ⟨slot, between, here, rethreaded, rfl, same⟩
  · cases refuted
  cases isCurrent.symm.trans here
  rcases rethreaded.process home with ⟨homeLink, homeRecord⟩
  rcases rethreaded.process away with ⟨awayLink, awayRecord⟩
  have homeAfter : (between.update away close).process home = between.process home := by
    rw [process_update, if_neg hosts.differ]
  have awayAfter : (between.update away close).process away = close (between.process away) := by
    rw [process_update, if_pos rfl]
  refine ⟨⟨?_, ?_, ?_, Nat.lt_succ_of_lt hosts.older⟩, rethreaded.current, ?_, ?_⟩
  · intro other live
    rw [process_update] at live
    split at live
    · simp [close, ProcessRecord.isLive] at live
    · rename_i elsewhere
      rcases rethreaded.process other with ⟨link, record⟩
      rw [record] at live
      rcases hosts.others other live with atHome | isAway
      · exact atHome
      · exact absurd isAway.symm elsewhere
  · rw [homeAfter, homeRecord]
    exact hosts.homePid
  · exact (congrArg UInt32.toNat rethreaded.nextPid).trans hosts.counter
  · rw [homeAfter, homeRecord]
    exact ready
  · rw [Option.some.inj same, awayAfter, awayRecord]
    rfl

end Laps

end ProcessTable

namespace Dispatcher

section Laps

variable {before after : Dispatcher} {plan : Option Switch} {idle : Pid} {home away : Slot}
  {next : Nat} {slots : List Slot}

/-- The new process gets the processor from the idle process. -/
theorem Decision.visit (decision : Decision before plan after) (queued : before.table.Queued slots)
    (hosts : before.table.Hosts idle home away next) (isCurrent : before.table.current = some home)
    (running : (before.table.process home).state = .running)
    (ready : (before.table.process away).state = .ready) :
    after.table.Hosts idle home away next ∧ after.table.current = some away ∧
      (after.table.process home).state = .ready ∧
      (after.table.process away).resources = (before.table.process away).resources := by
  have only : ∀ slot, (before.table.process slot).state = .ready → slot = away := by
    intro slot isReady
    rcases hosts.others slot (by simp [ProcessRecord.isLive, isReady]) with rfl | here
    · rw [running] at isReady
      cases isReady
    · exact here
  have notCurrent : before.table.current ≠ some away := by
    rw [isCurrent]
    intro same
    exact hosts.differ (Option.some.inj same).symm
  rw [decision.grants queued ready only notCurrent]
  let slice := before.scheduler.config.timeSliceTicks
  have awayRecord : (before.table.grant away slice).process away = _ :=
    process_grant_self notCurrent slice
  have homeRecord : (before.table.grant away slice).process home = _ :=
    process_grant_of_ne hosts.differ slice
  rw [if_pos isCurrent, ProcessRecord.demote, if_pos running] at homeRecord
  refine ⟨⟨hosts.differ, ?_, ?_, ?_, ?_, hosts.older⟩, rfl, ?_, ?_⟩
  · intro slot live
    by_cases here : away = slot
    · exact Or.inr here.symm
    · by_cases atHome : home = slot
      · exact Or.inl atHome.symm
      · rw [process_grant_of_ne here, isCurrent, if_neg (by simpa using atHome)] at live
        exact hosts.others slot live
  · rw [homeRecord]
    exact hosts.homePid
  · rw [awayRecord]
    exact hosts.awayPid
  · rw [nextPid_grant]
    exact hosts.counter
  · rw [homeRecord]
  · rw [awayRecord]

/-- The idle process gets the processor when it is alone. -/
theorem Decision.settle (decision : Decision before plan after)
    (queued : before.table.Queued slots) (lonely : before.table.Lonely idle home next)
    (noCurrent : before.table.current = none) (ready : (before.table.process home).state = .ready) :
    after.table.Rests idle home next := by
  have only : ∀ slot, (before.table.process slot).state = .ready → slot = home :=
    fun slot isReady => lonely.alone slot (by simp [ProcessRecord.isLive, isReady])
  have notCurrent : before.table.current ≠ some home := by simp [noCurrent]
  rw [decision.grants queued ready only notCurrent]
  have homeRecord := process_grant_self notCurrent before.scheduler.config.timeSliceTicks
  refine ⟨⟨?_, ?_, ?_, lonely.older⟩, ?_, rfl⟩
  · intro slot live
    by_cases here : home = slot
    · exact here.symm
    · rw [process_grant_of_ne here, if_neg (by simp [noCurrent])] at live
      exact lonely.alone slot live
  · rw [homeRecord]
    exact lonely.pid
  · rw [nextPid_grant]
    exact lonely.counter
  · rw [homeRecord]

end Laps

end Dispatcher

namespace Kernel

/-- The idle process is alone and has the processor, and there is a block and a frame for another
process. -/
structure Rested (kernel : Kernel) (root : Directory) (home : Slot) (next : Nat) : Prop where
  accounted : kernel.Accounted root [] []
  block : ∃ address after, (Heap.allocate Layout.processHeapSize).Yields kernel.heap (.ok address)
    after
  frame : ∃ number, kernel.spaces.frames.isSet number = false
  table : kernel.table.Rests kernel.idle home next

/-- There is one process besides the idle process, and the heap is as it was before but for what
that process has. -/
structure Hosting (before kernel : Kernel) (root : Directory) (home away : Slot) (next : Nat) :
    Prop where
  accounted : kernel.Accounted root [] []
  idle : kernel.idle = before.idle
  table : kernel.table.Hosts kernel.idle home away next
  heap : (Heap.allocate Layout.processHeapSize).Yields before.heap
    (.ok (kernel.table.process away).resources.heapStart) kernel.heap
  given : (kernel.table.process away).resources.heapStart <
    (kernel.table.process away).resources.heapEnd

section Laps

variable {before kernel : Kernel} {root : Directory} {home away : Slot} {next : Nat}

theorem Rested.spawn (rested : kernel.Rested root home next) (few : next + 1 < 2 ^ 32)
    (name : String) (entry priority : UInt32) :
    ∃ pid after away, (spawn name entry priority).Yields kernel (.ok pid) after ∧
      Hosting kernel after root home away next ∧ (after.table.process away).pid = pid ∧
      after.table.current = some home ∧ (after.table.process home).state = .running ∧
      (after.table.process away).state = .ready := by
  rcases yields_spawn rested.accounted name entry priority with ⟨reply, after, run⟩
  have accounted := rested.accounted.spawn run
  have outcome := spawn_outcome rested.accounted.heap run
  cases outcome with
  | full isFull =>
      rw [rested.table.not_full] at isFull
      cases isFull
  | noBlock refused =>
      rcases rested.block with ⟨address, heap, granted⟩
      cases (granted.unique refused).1
  | noFrame refused =>
      rcases rested.frame with ⟨number, clear⟩
      rcases rested.accounted.owned.createProcessDirectory with ⟨-, full⟩ | ⟨_, _, made, -⟩
      · rw [full number] at clear
        cases clear
      · cases (made.unique refused).1
  | @created pid heapStart heapEnd heap directory spaces table granted made reach entered =>
      rcases rested.table.create few entered with
        ⟨away, hosts, current, running, ready, here, resources⟩
      refine ⟨pid, _, away, run, ⟨accounted, rfl, hosts, ?_, ?_⟩, here, current, running, ready⟩
      · change (Heap.allocate _).Yields _ (.ok (table.process away).resources.heapStart) _
        rw [resources]
        exact granted
      · change (table.process away).resources.heapStart < (table.process away).resources.heapEnd
        rw [resources, UInt32.lt_iff_toNat_lt, reach]
        exact Nat.lt_add_of_pos_right (by decide)

theorem Hosting.start (hosting : Hosting before kernel root home away next)
    (isCurrent : kernel.table.current = some home)
    (running : (kernel.table.process home).state = .running)
    (ready : (kernel.table.process away).state = .ready) :
    ∃ plan after, Kernel.start.Yields kernel plan after ∧
      Hosting before after root home away next ∧ after.table.current = some away ∧
      (after.table.process home).state = .ready := by
  rcases hosting.accounted.queued with ⟨slots, queued⟩
  rcases yields_decision (Dispatcher.yields_schedule queued.toLinked) with ⟨plan, after, run⟩
  have accounted := hosting.accounted.start run
  rcases decides_of_masked run with ⟨dispatcher, current, decided, rfl⟩
  rcases (Dispatcher.decision_of_schedule decided).visit queued hosting.table isCurrent running
    ready with ⟨hosts, gained, waits, resources⟩
  refine ⟨plan, _, run, ⟨accounted, hosting.idle, hosts, ?_, ?_⟩, gained, waits⟩
  · change (Heap.allocate _).Yields _ (.ok (dispatcher.table.process away).resources.heapStart) _
    rw [resources]
    exact hosting.heap
  · change (dispatcher.table.process away).resources.heapStart <
      (dispatcher.table.process away).resources.heapEnd
    rw [resources]
    exact hosting.given

theorem Hosting.exit (hosting : Hosting before kernel root home away next)
    (rested : before.Rested root home next) (isCurrent : kernel.table.current = some away)
    (ready : (kernel.table.process home).state = .ready) (code : Int32) :
    ∃ plan after, (Kernel.exit code).Yields kernel plan after ∧ after.idle = before.idle ∧
      after.Rested root home (next + 1) := by
  have isProcess : kernel.table.currentProcess = some (kernel.table.process away) := by
    rw [currentProcess, isCurrent, Option.map_some]
  have other : (kernel.table.process away).pid ≠ kernel.idle := by
    intro same
    have older := hosting.table.older
    rw [← same, hosting.table.awayPid] at older
    exact absurd older (Nat.lt_irrefl next)
  rcases hosting.accounted.yields_exit code with ⟨plan, after, run, accounted, vacated⟩
  rcases vacated _ isProcess other with ⟨directory, -, clear⟩
  have frame : ∃ number, after.spaces.frames.isSet number = false :=
    ⟨_, clear _ AddressSpaces.frame_mem_privateFrames⟩
  refine ⟨plan, after, run, ?_⟩
  have outcome := exit_outcome run
  cases outcome with
  | ignored isIdle =>
      rw [currentPid, ProcessTable.currentPid, isProcess] at isIdle
      exact absurd (Option.some.inj isIdle) other
  | nobody noCurrent =>
      rw [isCurrent] at noCurrent
      cases noCurrent
  | @ended process table freed _ _ _ ending returned decided =>
      rcases hosting.table.exit isCurrent ready ending with ⟨lonely, noCurrent, waits, resources⟩
      rcases exit_cases hosting.accounted.currentLive ending with
        ⟨refuted, -⟩ | ⟨slot, _, -, left⟩
      · cases refuted
      rcases hosting.accounted.queued with ⟨slots, queued⟩
      rcases returned with ⟨⟨spaces, heap, rfl⟩, -, freed, -⟩
      rcases decided with ⟨dispatcher, current, decided, rfl⟩
      refine ⟨hosting.idle, accounted, ?_, frame, ?_⟩
      · rw [resources] at freed
        rcases freed hosting.given with ⟨reply, freed⟩
        rcases rested.accounted.heap with ⟨entries, sound⟩
        rcases freed.unique (sound.free_of_allocate hosting.heap) with ⟨-, restored⟩
        change heap = before.heap at restored
        change ∃ address final, (Heap.allocate _).Yields heap (.ok address) final
        rw [restored]
        exact rested.block
      · exact (Dispatcher.decision_of_schedule decided).settle (left.queued queued) lonely noCurrent
          waits

end Laps

section Bringup

variable {memory : BootMemory} {total : Nat} {idleEntry : UInt32} {config : SchedulerConfig}

/-- The heap that bring-up makes does not depend on the one that was there. -/
theorem yields_of_reset {Value : Type} {before after heap final : Heap} {value : Value}
    {action : Fallible Heap HeapError Value}
    (reset :
      (Heap.reset Layout.kernelHeapStart Layout.kernelHeapEnd).Yields before (.ok ()) after)
    (run : (do Heap.reset Layout.kernelHeapStart Layout.kernelHeapEnd
               action : Fallible Heap HeapError Value).Yields heap (.ok value) final) :
    action.Yields after (.ok value) final := by
  rcases Fallible.yields_bind.mp run with ⟨_, -, refuted⟩ | ⟨_, between, again, granted⟩
  · cases refuted
  have same : between = after := by
    cases made : Heap.ofRegion Layout.kernelHeapStart Layout.kernelHeapEnd with
    | error fault => simp [Heap.reset, made] at reset
    | ok outcome =>
        cases outcome with
        | error cause => simp [Heap.reset, made] at reset
        | ok heap =>
            simp [Heap.reset, made] at reset again
            rw [reset, again]
  exact same ▸ granted

/-- What bring-up makes the heap has room for the heap of a process. -/
theorem block_of_reset {before after : Heap}
    (reset :
      (Heap.reset Layout.kernelHeapStart Layout.kernelHeapEnd).Yields before (.ok ()) after) :
    ∃ address final, (Heap.allocate Layout.processHeapSize).Yields after (.ok address) final := by
  rcases Operation.yields_of_evaluation
      (do Heap.reset Layout.kernelHeapStart Layout.kernelHeapEnd
          Heap.allocate Layout.processHeapSize : Fallible Heap HeapError UInt32).result
      Heap.empty (fun reply _ => reply.isOk) (by decide +kernel) with
    ⟨reply, final, run, isOk⟩
  cases reply with
  | error cause => cases isOk
  | ok address => exact ⟨address, final, yields_of_reset reset run⟩

/-- After bring-up, the idle process is alone and waits for the processor. -/
theorem lonely_of_begun {before after : Kernel}
    (begun : Begun idleEntry config before (.ok ()) after) :
    after.idle = ⟨1⟩ ∧ ∃ home, after.table.Lonely after.idle home 2 ∧
      after.table.current = none ∧ (after.table.process home).state = .ready := by
  cases begun with
  | @ready _ root table heap created dispatcher =>
      have same : after.table = table := by rw [Kernel.table, dispatcher]
      rcases create_on_empty created with
        ⟨given, counter, current, home, ⟨link, record⟩, only⟩
      have idle : after.idle = ⟨1⟩ := Except.ok.inj given
      rw [same, idle]
      refine ⟨rfl, home, ⟨only, ?_, ?_, by decide⟩, current, ?_⟩
      · rw [record]
        rfl
      · rw [counter]
        rfl
      · rw [record]
        rfl

theorem scheduler_of_begun {before after : Kernel}
    (begun : Begun idleEntry config before (.ok ()) after) :
    after.dispatcher.scheduler = { config } := by
  cases begun with
  | ready heap created dispatcher => rw [dispatcher]

theorem heap_of_begun {before after : Kernel}
    (begun : Begun idleEntry config before (.ok ()) after) :
    ∃ address final,
      (Heap.allocate Layout.processHeapSize).Yields after.heap (.ok address) final := by
  cases begun with
  | ready heap created dispatcher => exact block_of_reset heap

/-- If bring-up leaves a frame, the idle process gets the processor, and there is room for another
process. -/
theorem rested_of_bringup (before : Kernel) (idleEntry : UInt32) (config : SchedulerConfig)
    (isTotal : min memory.totalBytes Layout.maxPhysicalMemory / Layout.frameSize = total)
    (enough : firstFrame + AddressSpaces.tablesFor total + 1 < total) :
    ∃ started plan kernel root home,
      (Kernel.init memory idleEntry config).Yields before (.ok ()) started ∧
      Kernel.start.Yields started plan kernel ∧ kernel.idle = ⟨1⟩ ∧
      kernel.dispatcher.scheduler = { config } ∧ kernel.Rested root home 2 := by
  rcases init_yields before idleEntry config isTotal (Nat.lt_of_succ_lt enough) with
    ⟨started, begun, free⟩
  rcases accounted_of_init begun with ⟨root, ready⟩
  rcases ready.queued with ⟨slots, queued⟩
  rcases yields_decision (Dispatcher.yields_schedule queued.toLinked) with ⟨plan, kernel, run⟩
  have accounted := ready.start run
  have frame : ∃ number, started.spaces.frames.isSet number = false := by
    apply Classical.byContradiction
    intro noneFree
    have full : ∀ number, started.spaces.frames.isSet number = true := by
      simpa using noneFree
    rw [ready.owned.wellFormed.freeFrames_eq_zero full] at free
    omega
  have outcome := init_outcome begun
  have block := heap_of_begun outcome
  rcases lonely_of_begun outcome with ⟨idle, home, lonely, noCurrent, waits⟩
  rcases decides_of_masked run with ⟨dispatcher, current, decided, rfl⟩
  have decision := Dispatcher.decision_of_schedule decided
  exact ⟨started, plan, _, root, home, begun, run, idle,
    decision.scheduler.trans (scheduler_of_begun outcome), accounted, block, frame,
    decision.settle queued lonely noCurrent waits⟩

/-- A machine with 16000 KB has room enough. -/
theorem rested_with_16000 (config : SchedulerConfig) :
    ∃ started plan kernel root home,
      (Kernel.init ⟨640, 15360⟩ 0x100000 config).Yields (.new true) (.ok ()) started ∧
      Kernel.start.Yields started plan kernel ∧ kernel.idle = ⟨1⟩ ∧
      kernel.dispatcher.scheduler = { config } ∧ kernel.Rested root home 2 :=
  rested_of_bringup (.new true) 0x100000 config total_of_16000 (by decide)

end Bringup

end Kernel

namespace Custody

/-- A process is created, gets the processor, and ends. -/
def lap (name : String) (entry priority : UInt32) (code : Int32) : List Call :=
  [.spawn name entry priority, .start, .exit code]

section Laps

variable {kernel : Kernel} {root : Directory} {home : Slot} {next : Nat} {name : String}
  {entry priority : UInt32} {code : Int32}

theorem step_of_yields {Value : Type} {action : Operation Kernel Value} {value : Value}
    {custody : Custody} {after : Kernel} (run : action.Yields custody.kernel value after) :
    (discard (onKernel action)).Yields custody () { custody with kernel := after } :=
  Operation.yields_discard (yields_onKernel.mpr ⟨after, run, rfl⟩)

theorem lap_rested (rested : kernel.Rested root home next) (few : next + 1 < 2 ^ 32)
    (name : String) (entry priority : UInt32) (code : Int32) :
    ∃ final, ((lap name entry priority code).forM Call.act).Yields (ofKernel kernel) ()
        (ofKernel final) ∧ final.idle = kernel.idle ∧ final.Rested root home (next + 1) := by
  rcases rested.spawn few name entry priority with
    ⟨pid, created, away, spawned, hosting, -, isCurrent, running, ready⟩
  rcases hosting.start isCurrent running ready with
    ⟨plan, visited, started, hosting, gained, waits⟩
  rcases hosting.exit rested gained waits code with ⟨other, final, exited, idle, restedAgain⟩
  refine ⟨final, ?_, idle, restedAgain⟩
  refine Operation.yields_bind.mpr ⟨(), _, step_of_yields spawned, ?_⟩
  refine Operation.yields_bind.mpr ⟨(), _, step_of_yields started, ?_⟩
  refine Operation.yields_bind.mpr ⟨(), _, step_of_yields exited, ?_⟩
  exact Operation.yields_pure.mpr ⟨rfl, rfl⟩

/-- One lap can follow another. -/
theorem laps_rested (rested : kernel.Rested root home next) (count : Nat)
    (few : next + count < 2 ^ 32) (name : String) (entry priority : UInt32) (code : Int32) :
    ∃ final, ((List.replicate count (lap name entry priority code)).flatten.forM Call.act).Yields
        (ofKernel kernel) () (ofKernel final) ∧ final.idle = kernel.idle ∧
      final.Rested root home (next + count) := by
  induction count generalizing kernel next with
  | zero => exact ⟨kernel, Operation.yields_pure.mpr ⟨rfl, rfl⟩, rfl, rested⟩
  | succ count ih =>
      rcases lap_rested rested (by omega) name entry priority code with
        ⟨between, first, sameIdle, restedBetween⟩
      rcases ih restedBetween (by omega) with ⟨final, others, idle, restedFinal⟩
      refine ⟨final, ?_, idle.trans sameIdle, ?_⟩
      · rw [List.replicate_succ, List.flatten_cons]
        exact Operation.yields_append.mpr ⟨_, first, others⟩
      · rw [Nat.add_assoc, Nat.add_comm 1 count] at restedFinal
        exact restedFinal

/-- The process that is created after any number of laps has the next id, and the idle process is
still there. -/
theorem spawned_after_laps (rested : kernel.Rested root home next) (count : Nat)
    (few : next + count + 1 < 2 ^ 32) (name : String) (entry priority : UInt32) (code : Int32) :
    ∃ final away,
      (((List.replicate count (lap name entry priority code)).flatten ++
        [Call.spawn name entry priority]).forM Call.act).Yields (ofKernel kernel) ()
          (ofKernel final) ∧
      away ≠ home ∧ (final.table.process home).isLive = true ∧
      (final.table.process away).isLive = true ∧ (final.table.process home).pid = kernel.idle ∧
      (final.table.process away).pid.word.toNat = next + count := by
  rcases laps_rested rested count (Nat.lt_of_succ_lt few) name entry priority code with
    ⟨between, laps, sameIdle, restedAgain⟩
  rcases restedAgain.spawn few name entry priority with
    ⟨pid, final, away, spawned, hosting, -, -, running, ready⟩
  refine ⟨final, away, ?_, hosting.table.differ, ?_, ?_, ?_, hosting.table.awayPid⟩
  · have step : (Call.spawn name entry priority).act.Yields (ofKernel between) ()
        (ofKernel final) := step_of_yields spawned
    refine Operation.yields_append.mpr ⟨_, laps, ?_⟩
    exact Operation.yields_bind.mpr ⟨(), _, step, Operation.yields_pure.mpr ⟨rfl, rfl⟩⟩
  · simp [ProcessRecord.isLive, running]
  · simp [ProcessRecord.isLive, ready]
  · rw [hosting.table.homePid, hosting.idle, sameIdle]

end Laps

end Custody

end KernelCore
