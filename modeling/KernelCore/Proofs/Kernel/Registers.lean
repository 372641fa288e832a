import KernelCore.Proofs.Kernel.Idle
import KernelCore.Proofs.Kernel.Prompt
import KernelCore.Proofs.Scheduler.Lookup

/-!
# Whose registers are loaded

What happens to processes is told as a list of happenings: processes begin and end, and the
processor is switched to a process, with the registers that it had and those that it gets. From the
past alone one can read off who has the processor and which registers a process is to go on with:
those that it begins with, until it has the processor and it is taken away, and then those that the
processor had at that moment. If plans are carried out at once, the registers that are loaded are
those, whatever the processor does to its registers in between, and even though slots and ids of
processes are used again.
-/

namespace KernelCore

open ProcessTable

/-- What happens to processes. -/
inductive Happening where
  | began (pid : Pid) (entry : UInt32)
  | ended (pid : Pid)
  /-- The processor, which has these registers, is switched to a process and has those then. -/
  | switched (left : Context) (into : Pid) (loaded : Context)

namespace Happening

/-- Who has the processor after what happened, the latest first. -/
def runner : List Happening → Option Pid
  | [] => none
  | .began _ _ :: past => runner past
  | .ended pid :: past => if runner past = some pid then none else runner past
  | .switched _ into _ :: _ => some into

/-- The registers that a process is to go on with after what happened, the latest first: those that
the processor had when it was last taken from the process, or else those that it begins with. -/
def saved (pid : Pid) : List Happening → Option Context
  | [] => none
  | .began other entry :: past =>
      if other = pid then
        some
          { esp := ProcessRecord.stackTopOf pid - 4
            ebp := ProcessRecord.stackTopOf pid - 4
            eip := entry
            ebx := 0
            esi := 0
            edi := 0
            eflags := 0x202 }
      else saved pid past
  | .ended other :: past => if other = pid then none else saved pid past
  | .switched left _ _ :: past => if runner past = some pid then some left else saved pid past

/-- Each time the processor is switched to a process, somebody else had it, and what is loaded are
the registers that the process is to go on with. -/
def Faithful (past : List Happening) : Prop :=
  ∀ left into loaded earlier, .switched left into loaded :: earlier <:+ past →
    runner earlier ≠ some into ∧ saved into earlier = some loaded

section Faithful

variable {past : List Happening} {left loaded : Context} {into : Pid}

theorem Faithful.began (faithful : Faithful past) (pid : Pid) (entry : UInt32) :
    Faithful (.began pid entry :: past) := by
  intro left into loaded earlier suffix
  rcases List.suffix_cons_iff.mp suffix with same | suffix
  · cases same
  · exact faithful left into loaded earlier suffix

theorem Faithful.ended (faithful : Faithful past) (pid : Pid) : Faithful (.ended pid :: past) := by
  intro left into loaded earlier suffix
  rcases List.suffix_cons_iff.mp suffix with same | suffix
  · cases same
  · exact faithful left into loaded earlier suffix

theorem Faithful.switched (faithful : Faithful past) (other : runner past ≠ some into)
    (same : saved into past = some loaded) : Faithful (.switched left into loaded :: past) := by
  intro left into loaded earlier suffix
  rcases List.suffix_cons_iff.mp suffix with isLast | suffix
  · cases isLast
    exact ⟨other, same⟩
  · exact faithful left into loaded earlier suffix

theorem faithful_nil : Faithful [] := by
  intro left into loaded earlier suffix
  cases List.suffix_nil.mp suffix

end Faithful

end Happening

open Happening

namespace ProcessTable

/-- Who had the processor before and is not live any more afterwards. -/
def departed (before after : ProcessTable) : Option Pid :=
  before.currentPid.filter fun pid => (after.find? pid).isNone

theorem departed_of_stays {before after : ProcessTable} (live : CurrentLive before)
    (stays : ∀ slot, before.occupant slot ≠ none →
      after.occupant slot = before.occupant slot) : departed before after = none := by
  rw [departed, Option.filter_eq_none_iff]
  intro pid isCurrent
  rcases occupant_of_currentPid live isCurrent with ⟨slot, resources, -, here⟩
  intro gone
  rw [Option.isNone_iff_eq_none] at gone
  refine find?_eq_none_iff.mp gone slot resources ((stays slot ?_).trans here)
  rw [here]
  exact Option.some_ne_none _

theorem departed_of_left {before between after : ProcessTable} (distinct : before.Distinct)
    {slot : Slot} {process : ProcessRecord} (left : Left before between slot process)
    (stays : ∀ slot, after.occupant slot = between.occupant slot) :
    departed before after = some process.pid := by
  rw [departed, Option.filter_eq_some_iff]
  refine ⟨currentPid_of_occupant left.current left.here, ?_⟩
  rw [Option.isNone_iff_eq_none]
  refine find?_eq_none_iff.mpr fun place resources here => ?_
  rcases left.stayed ((stays place).symm.trans here) with ⟨elsewhere, there⟩
  exact elsewhere (distinct place slot process.pid resources _ there left.here)

/-- The past tells who has the processor, and the registers that live processes go on with. -/
structure Recorded (table : ProcessTable) (past : List Happening) : Prop where
  current : runner past = table.currentPid
  contexts : ∀ slot pid resources, table.occupant slot = some (pid, resources) →
    saved pid past = some (table.process slot).context

section Recorded

variable {before between after : ProcessTable} {past : List Happening} {slot : Slot} {pid : Pid}
  {resources : ProcessResources}

theorem Recorded.same (recorded : before.Recorded past) (live : CurrentLive before)
    (occupant : ∀ slot, after.occupant slot = before.occupant slot)
    (contexts : SameContexts before after) (current : after.current = before.current) :
    after.Recorded past where
  current := by
    rw [recorded.current, currentPid_congr live current fun slot _ => occupant slot]
  contexts slot pid resources here := by
    rw [contexts slot]
    exact recorded.contexts slot pid resources ((occupant slot).symm.trans here)

theorem Recorded.began (recorded : before.Recorded past) (live : CurrentLive before)
    {entry : UInt32} (entered : Entered before after slot pid resources)
    (begins : (after.process slot).context = ProcessRecord.initialContext pid entry)
    (others : ∀ other, other ≠ slot → (after.process other).context =
      (before.process other).context) : after.Recorded (.began pid entry :: past) where
  current := by
    rw [runner, recorded.current]
    exact (currentPid_congr live entered.current
      fun place isCurrent => entered.stays (live place isCurrent)).symm
  contexts place other provided here := by
    rw [saved]
    by_cases isNew : place = slot
    · subst isNew
      rw [entered.here, Option.some.injEq, Prod.mk.injEq] at here
      rcases here with ⟨rfl, rfl⟩
      rw [if_pos rfl, begins]
      rfl
    · rw [entered.others place isNew] at here
      have differs : pid ≠ other := by
        rintro rfl
        exact entered.unused place provided here
      rw [if_neg differs, others place isNew]
      exact recorded.contexts place other provided here

theorem Recorded.ended (recorded : before.Recorded past) (distinct : before.Distinct)
    {process : ProcessRecord} (left : Left before after slot process)
    (contexts : SameContexts before after) : after.Recorded (.ended process.pid :: past) where
  current := by
    rw [runner, recorded.current, if_pos (currentPid_of_occupant left.current left.here),
      currentPid_of_none left.idle]
  contexts place pid resources here := by
    rcases left.stayed here with ⟨elsewhere, there⟩
    have differs : process.pid ≠ pid := by
      rintro rfl
      exact elsewhere (distinct place slot process.pid resources _ there left.here)
    rw [saved, if_neg differs, contexts place]
    exact recorded.contexts place pid resources there

/-- Carrying out a plan saves the registers of whoever had the processor, and loads those that the
other one is to go on with. -/
theorem Recorded.switched (recorded : before.Recorded past) (live : CurrentLive before)
    (distinct : before.Distinct) (occupant : ∀ slot, between.occupant slot = before.occupant slot)
    (contexts : SameContexts before between) {switch : Switch}
    (handover : Dispatcher.Handover before between switch) (registers : Context) :
    runner past ≠ some switch.incoming.1 ∧
      saved switch.incoming.1 past = some (switch.apply registers between).1 ∧
      (switch.apply registers between).2.Recorded
        (.switched registers switch.incoming.1 (switch.apply registers between).1 :: past) := by
  rcases handover.incoming with ⟨resources, incoming, -⟩
  have kept : ∀ slot, ((switch.apply registers between).2.process slot).context =
      if before.current = some slot then registers else (before.process slot).context := by
    intro slot
    rw [Dispatcher.context_apply, handover.outgoing_slot live, contexts slot]
  have steady := Dispatcher.steady_apply switch registers between
  refine ⟨?_, ?_, ?_, ?_⟩
  · rw [recorded.current]
    exact fun isCurrent =>
      handover.apart ((currentPid_eq_some_iff live distinct incoming).mp isCurrent)
  · have loaded := kept switch.incoming.2
    rw [if_neg handover.apart] at loaded
    change ((switch.apply registers between).1) = _ at loaded
    rw [loaded]
    exact recorded.contexts _ _ resources incoming
  · rw [runner]
    have here := (steady.occupant switch.incoming.2).trans ((occupant _).trans incoming)
    exact (currentPid_of_occupant (steady.current.trans handover.current) here).symm
  · intro slot pid provided here
    rw [steady.occupant, occupant] at here
    rw [saved, kept, recorded.current]
    by_cases isCurrent : before.current = some slot
    · rw [if_pos isCurrent, if_pos ((currentPid_eq_some_iff live distinct here).mpr isCurrent)]
    · rw [if_neg isCurrent,
        if_neg fun same => isCurrent ((currentPid_eq_some_iff live distinct here).mp same)]
      exact recorded.contexts slot pid provided here

end Recorded

end ProcessTable

namespace Kernel

section Rested

variable {kernel after : Kernel} {root : Directory} {home : Slot} {next : Nat}

theorem Rested.ran (rested : kernel.Rested root home next) (cpu : Cpu) :
    ({ kernel with cpu } : Kernel).Rested root home next :=
  ⟨rested.accounted.congr ⟨rfl, rfl, rfl, id⟩, rested.block, rested.frame, rested.table⟩

/-- The idle process still rests when its registers are loaded. -/
theorem Rested.performed {switch : Switch} {value : Unit} (rested : kernel.Rested root home next)
    (run : (perform switch).Yields kernel value after) : after.Rested root home next := by
  have accounted := rested.accounted.perform run
  have records := Dispatcher.process_apply switch kernel.cpu.registers kernel.table
  have steady := Dispatcher.steady_apply switch kernel.cpu.registers kernel.table
  have counter : (switch.apply kernel.cpu.registers kernel.table).2.nextPid =
      kernel.table.nextPid := by
    rcases switch with ⟨_ | ⟨pid, slot⟩, incoming, target⟩
    · rfl
    · rfl
  rcases records home with ⟨context, homeRecord⟩
  rw [perform_outcome run] at accounted ⊢
  refine ⟨accounted, rested.block, rested.frame, ⟨?_, ?_, ?_, rested.table.older⟩, ?_, ?_⟩
  · intro slot live
    rcases records slot with ⟨_, record⟩
    change ((switch.apply _ _).2.process slot).isLive = true at live
    rw [record] at live
    exact rested.table.alone slot live
  · change ((switch.apply _ _).2.process home).pid = _
    rw [homeRecord]
    exact rested.table.pid
  · exact (congrArg UInt32.toNat counter).trans rested.table.counter
  · change ((switch.apply _ _).2.process home).state = _
    rw [homeRecord]
    exact rested.table.running
  · exact steady.current.trans rested.table.current

end Rested

end Kernel

namespace Custody

/-- What happens to processes when a call is answered and what it plans is carried out, the latest
first. -/
def Answer.happenings (answer : Answer) (before between after : Kernel) : List Happening :=
  (answer.plan.map fun switch =>
      .switched between.cpu.registers switch.incoming.1 after.cpu.registers).toList ++
    (((departed before.table between.table).map .ended).toList ++
      (answer.began.map fun (pid, entry) => .began pid entry).toList)

/-- The past tells what the processes are like, and the processor always got the right registers. -/
structure Told (table : ProcessTable) (past : List Happening) : Prop where
  recorded : table.Recorded past
  faithful : Faithful past

section Telling

variable {before between after : Kernel} {custody final : Custody} {past : List Happening}
  {plan : Option Switch}

/-- Carrying out what has been planned goes into the records. -/
theorem Told.carried {source : Dispatcher} (told : Told source.table past)
    (live : CurrentLive source.table) (distinct : source.table.Distinct)
    (planned : source.Planned custody.kernel.dispatcher plan)
    (performed : (carryOut plan).Yields custody () final) :
    Told final.kernel.table ((plan.map fun switch =>
      .switched custody.kernel.cpu.registers switch.incoming.1
        final.kernel.cpu.registers).toList ++ past) := by
  rcases carryOut_cases performed with ⟨rfl, rfl⟩ | ⟨switch, kernel, rfl, run, rfl⟩
  · exact ⟨told.recorded.same live planned.occupant planned.contexts (planned.stays rfl),
      told.faithful⟩
  · rw [Kernel.perform_outcome run]
    rcases told.recorded.switched live distinct planned.occupant planned.contexts
      (planned.goes switch rfl) custody.kernel.cpu.registers with ⟨other, loaded, recorded⟩
    exact ⟨recorded, told.faithful.switched other loaded⟩

theorem Told.decided (told : Told before.table past) (live : CurrentLive before.table)
    (distinct : before.table.Distinct)
    (planned : before.dispatcher.Planned custody.kernel.dispatcher plan)
    (performed : (carryOut plan).Yields custody () final) :
    Told final.kernel.table
      (Answer.happenings { plan } before custody.kernel final.kernel ++ past) := by
  have nobody : departed before.table custody.kernel.table = none :=
    departed_of_stays live fun slot _ => planned.occupant slot
  rw [Answer.happenings, nobody, List.append_assoc]
  exact told.carried live distinct planned performed

theorem Told.unchanged (told : Told before.table past) (live : CurrentLive before.table)
    (distinct : before.table.Distinct) (same : custody.kernel.dispatcher = before.dispatcher)
    (performed : (carryOut none).Yields custody () final) :
    Told final.kernel.table
      (Answer.happenings {} before custody.kernel final.kernel ++ past) := by
  refine told.decided live distinct ?_ performed
  rw [same]
  exact Dispatcher.planned_of_steady (.refl _) (.refl _)

theorem Told.spawned (told : Told before.table past) (live : CurrentLive before.table)
    (distinct : before.table.Distinct) {name : String} {entry priority : UInt32}
    {reply : Except KernelError Pid}
    (spawned : Kernel.Spawned name entry priority before reply custody.kernel)
    (performed : (carryOut none).Yields custody () final) :
    Told final.kernel.table
      (Answer.happenings { began := reply.toOption.map fun pid => (pid, entry) } before
        custody.kernel final.kernel ++ past) := by
  rcases spawned.entered with ⟨refused, same⟩ | ⟨pid, slot, resources, rfl, entered, begins, others⟩
  · rw [refused]
    exact told.unchanged live distinct (congrArg Kernel.dispatcher same) performed
  · have nobody : departed before.table custody.kernel.table = none :=
      departed_of_stays live fun _ => entered.stays
    rcases Operation.yields_pure.mp performed with ⟨-, rfl⟩
    rw [Answer.happenings, nobody]
    exact ⟨told.recorded.began live entered begins others, told.faithful.began pid entry⟩

theorem Told.exited (told : Told before.table past) (live : CurrentLive before.table)
    (distinct : before.table.Distinct) {code : Int32}
    (exited : Kernel.Exited code before plan custody.kernel)
    (performed : (carryOut plan).Yields custody () final) :
    Told final.kernel.table
      (Answer.happenings { plan } before custody.kernel final.kernel ++ past) := by
  rcases exited.left live with ⟨rfl, same⟩ | ⟨slot, process, between, left, contexts, planned⟩
  · exact told.unchanged live distinct (congrArg Kernel.dispatcher same) performed
  · have gone : departed before.table custody.kernel.table = some process.pid :=
      departed_of_left distinct left planned.occupant
    have ended : Told between.table (.ended process.pid :: past) :=
      ⟨told.recorded.ended distinct left contexts, told.faithful.ended process.pid⟩
    rw [Answer.happenings, gone, List.append_assoc]
    exact ended.carried left.currentLive ((Population.left left).distinct distinct) planned
      performed

/-- Whatever comes of a call goes into the records. -/
theorem Told.answered {call : Call} {answer : Answer} (told : Told before.table past)
    (live : CurrentLive before.table) (distinct : before.table.Distinct)
    (answered : before.Answered call answer custody.kernel)
    (performed : (carryOut answer.plan).Yields custody () final) :
    Told final.kernel.table (answer.happenings before custody.kernel final.kernel ++ past) := by
  cases answered with
  | spawned outcome => exact told.spawned live distinct outcome performed
  | decided planned idle noted => exact told.decided live distinct planned performed
  | exited outcome noted => exact told.exited live distinct outcome performed
  | elsewhere dispatcher idle current => exact told.unchanged live distinct dispatcher performed

/-- When a process ends, none begins. -/
theorem began_of_departed {call : Call} {answer : Answer} {pid : Pid}
    (live : CurrentLive before.table) (answered : before.Answered call answer after)
    (gone : departed before.table after.table = some pid) : answer.began = none := by
  cases answered with
  | spawned outcome =>
      rcases outcome.entered with ⟨refused, -⟩ | ⟨_, slot, _, -, entered, -, -⟩
      · rw [refused]
        rfl
      · rw [departed_of_stays live fun _ => entered.stays] at gone
        cases gone
  | decided planned idle noted => rfl
  | exited outcome noted => rfl
  | elsewhere dispatcher idle current => rfl

theorem told_empty (timeSlice : UInt32) : Told (.empty timeSlice) [] where
  recorded := {
    current := rfl
    contexts := by
      intro slot pid resources here
      rw [occupant_empty] at here
      cases here }
  faithful := faithful_nil

/-- The idle process is the first one. -/
theorem told_of_begun {idleEntry : UInt32} {config : SchedulerConfig}
    (begun : Kernel.Begun idleEntry config before (.ok ()) after) :
    Told after.table [.began after.idle idleEntry] := by
  cases begun with
  | ready heap created dispatcher =>
      rcases create_contexts created with ⟨slot, entered, begins, others⟩
      have told := told_empty config.timeSliceTicks
      have nobody : CurrentLive (.empty config.timeSliceTicks) := by
        intro place isCurrent
        cases isCurrent
      rw [Kernel.table, dispatcher]
      exact ⟨told.recorded.began nobody entered begins others, told.faithful.began _ idleEntry⟩

end Telling

/-- The states after bring-up and what has happened to processes until then, the latest first, if
each plan is carried out at once. Between calls, the processor may do whatever it likes. -/
inductive Chronicle : Custody → List Happening → Prop where
  | begun {before started : Kernel} {memory : BootMemory} {idleEntry : UInt32}
      {config : SchedulerConfig}
      (run : (Kernel.init memory idleEntry config).Yields before (.ok ()) started) :
      Chronicle (ofKernel started) [.began started.idle idleEntry]
  | ran {custody : Custody} {past : List Happening} (cpu : Cpu) (so : Chronicle custody past) :
      Chronicle { custody with kernel := { custody.kernel with cpu } } past
  | called {start between final : Custody} {past : List Happening} {call : Call}
      {answer : Answer} (so : Chronicle start past) (other : ∀ switch, call ≠ .perform switch)
      (answered : call.answer.Yields start answer between)
      (performed : (carryOut answer.plan).Yields between () final) :
      Chronicle final (answer.happenings start.kernel between.kernel final.kernel ++ past)

section Chronicle

variable {start between final custody : Custody} {past : List Happening} {call : Call}
  {answer : Answer} {plan : Option Switch}

theorem reached_of_carryOut (reached : start.kernel.Reached)
    (performed : (carryOut plan).Yields start () final) : final.kernel.Reached := by
  rcases carryOut_cases performed with ⟨-, rfl⟩ | ⟨switch, kernel, -, run, rfl⟩
  · exact reached
  · have step : (Call.perform switch).act.Yields start () { start with kernel } :=
      yields_onKernel.mpr ⟨kernel, run, rfl⟩
    exact .served reached step

theorem Chronicle.told (chronicle : Chronicle custody past) :
    custody.kernel.Reached ∧ Told custody.kernel.table past := by
  induction chronicle with
  | begun run => exact ⟨.begun run, told_of_begun (Kernel.init_outcome run)⟩
  | ran cpu so ih => exact ⟨.ran ih.1 cpu, ih.2⟩
  | called so other answered performed ih =>
      rcases ih with ⟨reached, told⟩
      have intact := reached.intact
      refine ⟨reached_of_carryOut (.served reached (act_of_answer answered)) performed, ?_⟩
      exact told.answered intact.housed.toSound.currentLive intact.housed.distinct
        (answered_of_answer intact other answered) performed

theorem Told.context {table : ProcessTable} (told : Told table past) {pid : Pid}
    {process : ProcessRecord} (found : table.find? pid = some process) :
    saved pid past = some process.context := by
  rcases occupant_of_find? found with ⟨slot, rfl, here⟩
  exact told.recorded.contexts slot pid _ here

/-- If plans are carried out at once, each switch loads the registers that the process is to go on
with, and the kernel keeps those of all live processes, even when a process ends: what the processor
has then is not kept of anybody else. -/
theorem Chronicle.registers_survive (chronicle : Chronicle custody past) :
    Faithful past ∧ runner past = custody.kernel.currentPid ∧
      (∀ pid process, custody.kernel.process pid = some process →
        saved pid past = some process.context) ∧
      ∀ (call : Call) (answer : Answer) (between final : Custody) (pid : Pid),
        (∀ switch, call ≠ .perform switch) → call.answer.Yields custody answer between →
        (carryOut answer.plan).Yields between () final →
        departed custody.kernel.table between.kernel.table = some pid →
        ∀ other earlier later, custody.kernel.process other = some earlier →
          final.kernel.process other = some later → later.context = earlier.context := by
  rcases chronicle.told with ⟨reached, told⟩
  refine ⟨told.faithful, told.recorded.current, fun _ _ => told.context, ?_⟩
  intro call answer between final pid notPerform answered performed gone other earlier later
    was isNow
  have live := reached.intact.housed.toSound.currentLive
  have noneBegan : answer.began = none :=
    began_of_departed live (answered_of_answer reached.intact notPerform answered) gone
  have after := (Chronicle.called chronicle notPerform answered performed).told.2.context isNow
  have wasSaved := told.context was
  have held : runner past = some pid := by
    rw [told.recorded.current]
    exact (Option.filter_eq_some_iff.mp gone).1
  -- Nobody has the processor when it is switched, so nothing is saved.
  have kept : saved other past = some later.context := by
    rw [Answer.happenings, gone, noneBegan] at after
    cases planned : answer.plan with
    | none =>
        simp [planned, saved] at after
        exact after.2
    | some switch =>
        simp [planned, saved, runner, held] at after
        exact after.2
  rw [wasSaved] at kept
  exact (Option.some.inj kept).symm

theorem yields_carryOut (plan : Option Switch) (custody : Custody) :
    ∃ kernel, (carryOut plan).Yields custody () { custody with kernel } := by
  cases plan with
  | none => exact ⟨custody.kernel, Operation.yields_pure.mpr ⟨rfl, rfl⟩⟩
  | some switch =>
      have run : ∃ kernel, (Kernel.perform switch).Yields custody.kernel () kernel := by
        simp [Kernel.perform]
      rcases run with ⟨kernel, run⟩
      exact ⟨kernel, yields_onKernel.mpr ⟨kernel, run, rfl⟩⟩

theorem rested_of_carryOut {root : Directory} {home : Slot} {next : Nat}
    (rested : start.kernel.Rested root home next)
    (performed : (carryOut plan).Yields start () final) : final.kernel.Rested root home next := by
  rcases carryOut_cases performed with ⟨-, rfl⟩ | ⟨switch, kernel, -, run, rfl⟩
  · exact rested
  · exact rested.performed run

theorem yields_kept {Value : Type} {action : Operation Kernel Value} {keep : Value → Answer}
    {value : Value} {kernel : Kernel} (run : action.Yields start.kernel value kernel)
    (same : keep value = answer) :
    (do return keep (← onKernel action)).Yields start answer { start with kernel } :=
  Operation.yields_bind.mpr ⟨value, _, yields_onKernel.mpr ⟨kernel, run, rfl⟩,
    Operation.yields_pure.mpr ⟨same.symm, rfl⟩⟩

/-- The idle process has the processor, which has run for a while, when a process is created. -/
theorem hosting_with_registers (registers : Context) :
    ∃ before kernel past root home away, Chronicle (ofKernel kernel) past ∧
      Kernel.Hosting before kernel root home away 2 ∧ kernel.table.current = some home ∧
      (kernel.table.process home).state = .running ∧
      (kernel.table.process away).state = .ready ∧ kernel.cpu.registers = registers := by
  rcases Kernel.rested_with_16000 {} with
    ⟨started, plan, kernel, root, home, begun, run, -, -, rested⟩
  rcases yields_carryOut plan (ofKernel kernel) with ⟨idling, performed⟩
  have idles : ∃ past, Chronicle (ofKernel idling) past := by
    have answered : Call.start.answer.Yields (ofKernel started) { plan } (ofKernel kernel) :=
      yields_kept run rfl
    exact ⟨_, .called (.begun begun) (by simp) answered performed⟩
  rcases idles with ⟨_, idles⟩
  have rests : idling.Rested root home 2 := rested_of_carryOut rested performed
  let cpu : Cpu := { idling.cpu with registers }
  rcases (rests.ran cpu).spawn (by decide) "p" 0x108000 1 with
    ⟨pid, hosts, away, spawned, hosting, -, isCurrent, running, ready⟩
  have same : hosts.cpu = cpu := by
    rcases Kernel.spawn_outcome (rests.ran cpu).accounted.heap spawned with _ | _ | _ | _
    rfl
  have answered : (Call.spawn "p" 0x108000 1).answer.Yields
      (ofKernel { idling with cpu }) { began := some (pid, 0x108000) } (ofKernel hosts) :=
    yields_kept spawned rfl
  have nothing : (carryOut none).Yields (ofKernel hosts) () (ofKernel hosts) :=
    Operation.yields_pure.mpr ⟨rfl, rfl⟩
  exact ⟨_, hosts, _, root, home, away, .called (.ran cpu idles) (by simp) answered nothing,
    hosting, isCurrent, running, ready, congrArg Cpu.registers same⟩

/-- When the new process gets the processor, the registers are kept of the idle process. -/
theorem Chronicle.registers_survive_preemption :
    ∃ custody past process, Chronicle custody past ∧
      custody.kernel.process custody.kernel.idle = some process ∧
      process.context = { eip := 0x100004, ebx := 7 } := by
  rcases hosting_with_registers { eip := 0x100004, ebx := 7 } with
    ⟨_, hosts, past, root, home, away, created, hosting, isCurrent, running, ready, registers⟩
  have live : CurrentLive hosts.table := hosting.accounted.currentLive
  have here : hosts.table.occupant home =
      some (hosts.idle, (hosts.table.process home).resources) :=
    ProcessRecord.identity_eq_some.mpr
      ⟨by simp [ProcessRecord.isLive, running], hosting.table.homePid, rfl⟩
  have holds := created.registers_survive.2.1.trans (currentPid_of_occupant isCurrent here)
  rcases hosting.start isCurrent running ready with ⟨plan, _, asked, -, gained, -⟩
  rcases Kernel.decides_of_masked asked with ⟨dispatcher, active, decided, rfl⟩
  have planned := Dispatcher.schedule_planned live decided
  let visited : Kernel :=
    { hosts with dispatcher, spaces := { hosts.spaces with current := active } }
  have answered : Call.start.answer.Yields (ofKernel hosts) { plan } (ofKernel visited) :=
    yields_kept asked rfl
  rcases yields_carryOut plan (ofKernel visited) with ⟨final, performed⟩
  have preempted := Chronicle.called created (by simp) answered performed
  rcases carryOut_cases performed with ⟨rfl, -⟩ | ⟨switch, _, rfl, carried, isFinal⟩
  · have stays : some home = some away :=
      isCurrent.symm.trans ((planned.stays rfl).symm.trans gained)
    exact absurd (Option.some.inj stays).symm hosting.table.differ
  cases isFinal
  have outcome := Kernel.perform_outcome carried
  have idle : final.idle = hosts.idle := by
    rw [outcome]
    rfl
  have there : final.table.occupant home = hosts.table.occupant home := by
    rw [outcome]
    exact ((Dispatcher.steady_apply _ _ _).occupant home).trans (planned.occupant home)
  have nobody : departed hosts.table visited.table = none :=
    departed_of_stays live fun slot _ => planned.occupant slot
  cases found : final.process final.idle with
  | none =>
      rw [here, ← idle] at there
      exact absurd there (find?_eq_none_iff.mp found home _)
  | some process =>
      have kept := preempted.registers_survive.2.2.1 final.idle process found
      rw [Answer.happenings, idle] at kept
      simp [ofKernel, nobody, saved, holds] at kept
      exact ⟨_, _, process, preempted, found, kept.symm.trans registers⟩

end Chronicle

end Custody

end KernelCore
