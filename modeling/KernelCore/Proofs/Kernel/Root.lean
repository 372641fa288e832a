import KernelCore.Proofs.Kernel.Registers

/-!
# Which address space the processor works in

Which address space counts as active is written when one is loaded, when a plan is made that will
load one, and when the active one is given back with the process that it belonged to. As long as
plans are carried out at once, the one that counts as active after each call is the one that was
loaded last, it is in use, and without users who switch address spaces it is that of the process
that has the processor.
-/

namespace KernelCore

open ProcessTable

namespace Kernel

/-- The process that has the processor works in its own address space. -/
def AtHome (kernel : Kernel) : Prop :=
  ∀ process, kernel.table.currentProcess = some process →
    process.resources.directory = kernel.spaces.current

section AtHome

variable {before between after kernel : Kernel} {root : Directory} {held : List Frame}
  {created : List Directory} {call : Custody.Call} {answer : Custody.Answer} {switch : Switch}
  {slot : Slot} {pid : Pid} {resources : ProcessResources}

theorem atHome_of_occupant (isCurrent : kernel.table.current = some slot)
    (here : kernel.table.occupant slot = some (pid, resources))
    (own : resources.directory = kernel.spaces.current) : kernel.AtHome := by
  intro process isProcess
  rw [currentProcess, isCurrent, Option.map_some, Option.some.injEq] at isProcess
  rcases ProcessRecord.identity_eq_some.mp here with ⟨-, -, same⟩
  rw [← isProcess, same]
  exact own

theorem AtHome.congr (atHome : before.AtHome) (live : CurrentLive before.table)
    (current : after.table.current = before.table.current)
    (occupant : ∀ slot, before.table.current = some slot →
      after.table.occupant slot = before.table.occupant slot)
    (active : after.spaces.current = before.spaces.current) : after.AtHome := by
  cases isCurrent : before.table.current with
  | none =>
      intro process isProcess
      rw [currentProcess, current, isCurrent] at isProcess
      cases isProcess
  | some slot =>
      rcases Option.ne_none_iff_exists'.mp (live slot isCurrent) with ⟨⟨pid, resources⟩, here⟩
      refine atHome_of_occupant (current.trans isCurrent)
        ((occupant slot isCurrent).trans here) ?_
      rcases ProcessRecord.identity_eq_some.mp here with ⟨-, -, same⟩
      rw [active, ← same]
      apply atHome
      rw [currentProcess, isCurrent, Option.map_some]

theorem Accounted.directory_of_occupant (accounted : kernel.Accounted root held created)
    (here : kernel.table.occupant slot = some (pid, resources)) :
    ∃ directory, resources.directory = some directory := by
  by_cases isIdle : pid = kernel.idle
  · subst isIdle
    exact ⟨root, accounted.idleRoot slot resources here⟩
  · exact accounted.given slot pid resources here isIdle

/-- A new process has no effect on which address space is active. -/
theorem Spawned.active {name : String} {entry priority : UInt32} {reply : Except KernelError Pid}
    (spawned : Spawned name entry priority before reply after) :
    after.spaces.current = before.spaces.current := by
  cases spawned with
  | full isFull => rfl
  | noBlock refused => rfl
  | noFrame refused => rfl
  | created granted made reach entered =>
      rcases createProcessDirectory_outcome made with ⟨refuted, -⟩ | ⟨_, _, _, -, rfl, -⟩
      · cases refuted
      · rfl

/-- Whoever gets the processor has an address space, and it is the one that the plan names. -/
theorem atHome_of_handover {source : ProcessTable}
    (handover : Dispatcher.Handover source after.table switch)
    (occupant : ∀ slot, after.table.occupant slot = source.occupant slot)
    (given : ∀ {slot pid resources}, source.occupant slot = some (pid, resources) →
      ∃ directory, resources.directory = some directory)
    (noted : ∀ directory, switch.directory = some directory →
      after.spaces.current = some directory) :
    ∃ directory, switch.directory = some directory ∧
      after.spaces.current = some directory ∧ after.AtHome := by
  rcases handover.incoming with ⟨resources, here, named⟩
  rcases given here with ⟨directory, own⟩
  have active := noted directory (named.trans own)
  refine ⟨directory, named.trans own, active, ?_⟩
  exact atHome_of_occupant handover.current ((occupant _).trans here) (own.trans active.symm)

/-- What counts as active is what the plan is going to load, and without a plan what it was. If
nobody asks for another address space, whoever has the processor works in its own. -/
theorem Answered.settles (accounted : before.Accounted root held created)
    (attends : before.Attends after) (notSwitch : ∀ directory, call ≠ .switchAddressSpace directory)
    (answered : before.Answered call answer after) :
    after.spaces.current = (answer.plan.bind Switch.directory).or before.spaces.current ∧
      (before.AtHome → after.AtHome) := by
  have live := accounted.currentLive
  cases answered with
  | spawned outcome =>
      refine ⟨outcome.active, fun atHome => ?_⟩
      rcases outcome.entered with ⟨-, rfl⟩ | ⟨_, slot, _, -, entered, -, -⟩
      · exact atHome
      · exact atHome.congr live entered.current
          (fun place isCurrent => entered.stays (live place isCurrent)) outcome.active
  | @decided _ plan _ planned idle noted =>
      refine ⟨noted, fun atHome => ?_⟩
      cases plan with
      | none =>
          exact atHome.congr live (planned.stays rfl) (fun slot _ => planned.occupant slot) noted
      | some switch =>
          have names : ∀ directory, switch.directory = some directory →
              after.spaces.current = some directory := by
            intro directory named
            rw [noted, Option.bind_some, named]
            rfl
          rcases atHome_of_handover (planned.goes switch rfl) planned.occupant
            accounted.directory_of_occupant names with ⟨_, -, -, atHomeAfter⟩
          exact atHomeAfter
  | @exited _ code plan _ outcome noted =>
      rcases outcome.left live with ⟨rfl, rfl⟩ | ⟨slot, process, between, left, -, planned⟩
      · exact ⟨rfl, id⟩
      cases plan with
      | none =>
          -- The processor would be left without a process.
          have noCurrent : after.table.current = none := (planned.stays rfl).trans left.idle
          rcases attends.onward with ⟨place, isCurrent, -⟩ | ⟨nobody, -⟩
          · rw [Kernel.table] at noCurrent
            rw [noCurrent] at isCurrent
            cases isCurrent
          · cases nobody.symm.trans left.current
      | some switch =>
          have given : ∀ {place pid resources},
              between.table.occupant place = some (pid, resources) →
                ∃ directory, resources.directory = some directory :=
            fun here => accounted.directory_of_occupant (left.stayed here).2
          rcases atHome_of_handover (planned.goes switch rfl) planned.occupant given noted with
            ⟨directory, named, active, atHomeAfter⟩
          refine ⟨?_, fun _ => atHomeAfter⟩
          rw [active, Option.bind_some, named]
          rfl
  | elsewhere dispatcher idle current =>
      refine ⟨current notSwitch, fun atHome => ?_⟩
      have same : after.table = before.table := congrArg Dispatcher.table dispatcher
      exact atHome.congr live (congrArg ProcessTable.current same) (fun _ _ => by rw [same])
        (current notSwitch)

end AtHome

section Loading

variable {Value : Type} {kernel : Kernel} {loaded : Option Directory} {directory : Directory}

/-- Carrying out a plan loads the address space that it names, if it names one. -/
theorem perform_leads (switch : Switch) :
    (perform switch).Leads kernel loaded fun _ after now =>
      after.spaces = kernel.spaces ∧ now = switch.directory.or loaded := by
  intro value after effects run
  rw [perform_outcome ⟨effects, run⟩]
  refine ⟨rfl, ?_⟩
  rcases Operation.bind_eq_ok.mp run with ⟨registers, between, early, late, begun, ended, rfl⟩
  cases begun
  cases ended
  rw [List.nil_append, Switch.events]
  cases switch.directory with
  | none => rfl
  | some directory => rfl

theorem switchTo_leads {spaces : AddressSpaces} :
    (AddressSpaces.switchTo directory).Leads spaces loaded fun _ after now =>
      after.current = some directory ∧ now = some directory := by
  intro value after effects run
  cases run
  exact ⟨rfl, rfl⟩

theorem leads_onSpaces {action : Operation AddressSpaces Value}
    {ends : Value → AddressSpaces → Option Directory → Prop}
    (led : action.Leads kernel.spaces loaded ends) :
    (onSpaces action).Leads kernel loaded fun value after now => ends value after.spaces now :=
  Operation.leads_within led

theorem switchAddressSpace_leads (directory : Directory) :
    (switchAddressSpace directory).Leads kernel loaded fun _ after now =>
      after.spaces.current = some directory ∧ now = some directory :=
  Operation.leads_masked (fun _ => leads_onSpaces switchTo_leads) fun _ _ _ _ ended => ended

theorem passive_seedStack (pid : Pid) :
    (seedStack pid).Passive fun kernel => kernel.spaces.current := by
  refine Operation.passive_bind Operation.passive_get fun kernel => ?_
  split
  · exact Operation.passive_signal (by simp)
  · exact Operation.passive_pure

theorem passive_onDispatcher {action : Operation Dispatcher Value} (silent : action.Silent) :
    (onDispatcher action).Passive fun kernel => kernel.spaces.current :=
  Operation.passive_within silent.passive_unit fun _ _ _ => rfl

/-- Bring-up loads the address space that counts as active afterwards. -/
theorem init_leads {memory : BootMemory} {idleEntry : UInt32} {config : SchedulerConfig} :
    (Kernel.init memory idleEntry config).Leads kernel loaded fun _ after now =>
      now ≠ none ∧ after.spaces.current = now := by
  refine Operation.leads_masked (fun start => ?_) fun _ _ _ _ ended => ended
  -- What is done until the kernel has an address space to load does not matter.
  refine Fallible.leads_after fun _ _ _ => ?_
  refine Fallible.leads_after fun _ _ _ => ?_
  refine Fallible.leads_after fun _ _ _ => ?_
  refine Fallible.leads_after fun _ _ _ => ?_
  refine Fallible.leads_after fun _ _ _ => ?_
  refine Fallible.leads_after fun directory between unknown => ?_
  have switches : Fallible.Leads
      (Fallible.always (onSpaces (AddressSpaces.switchTo directory)) :
        Fallible Kernel KernelError Unit) between unknown
      fun _ after now => after.spaces.current = some directory ∧ now = some directory :=
    Fallible.leads_lift (leads_onSpaces switchTo_leads)
  refine Fallible.leads_bind switches fun _ between now switched => ?_
  rcases switched with ⟨active, rfl⟩
  refine Fallible.Passive.leads ?_
    fun _ after (same : after.spaces.current = between.spaces.current) =>
      ⟨Option.some_ne_none _, same.trans active⟩
  refine Fallible.passive_bind (Fallible.passive_lift (Operation.passive_signal (by simp)))
    fun _ => ?_
  refine Fallible.passive_bind Fallible.passive_log fun _ => ?_
  refine Fallible.passive_bind
    (Fallible.passive_lift (passive_onDispatcher Operation.silent_set)) fun _ => ?_
  refine Fallible.passive_bind (Fallible.passive_mapCause
    (passive_onDispatcher (Dispatcher.silent_onTable (silent_create _ _ _ _)))) fun _ => ?_
  refine Fallible.passive_bind (Fallible.passive_lift (Operation.passive_modify fun _ => rfl))
    fun pid => ?_
  exact Fallible.passive_lift (passive_seedStack _)

end Loading

end Kernel

namespace Custody

section Leading

variable {Value : Type} {custody final : Custody} {call : Call} {answer : Answer}
  {loaded : Option Directory} {plan : Option Switch}

theorem leads_onKernel {action : Operation Kernel Value}
    {ends : Value → Kernel → Option Directory → Prop}
    (led : action.Leads custody.kernel loaded ends) :
    (onKernel action).Leads custody loaded fun value final now => ends value final.kernel now :=
  Operation.leads_within led

theorem carryOut_leads (plan : Option Switch) :
    (carryOut plan).Leads custody loaded fun _ final now =>
      final.kernel.spaces = custody.kernel.spaces ∧
        now = (plan.bind Switch.directory).or loaded := by
  cases plan with
  | none =>
      have stays : (carryOut none).Passive fun custody => custody.kernel.spaces :=
        Operation.passive_pure
      exact stays.leads fun _ _ _ same => ⟨same, rfl⟩
  | some switch => exact leads_onKernel (Kernel.perform_leads switch)

/-- Does what is called for, and carries out at once what it plans. -/
def Call.prompt (call : Call) : Operation Custody Unit := do
  carryOut (← call.answer).plan

/-- A prompt call is answered, and then the plan is carried out. -/
theorem yields_prompt {value : Unit} : call.prompt.Yields custody value final ↔
    ∃ answer between, call.answer.Yields custody answer between ∧
      (carryOut answer.plan).Yields between value final :=
  Operation.yields_bind

/-- What is loaded after a call is what its plan names, or else what was loaded before, unless the
call asks for another address space. -/
theorem Call.prompt_leads (call : Call) (notPerform : ∀ switch, call ≠ .perform switch)
    (notSwitch : ∀ directory, call ≠ .switchAddressSpace directory) :
    call.prompt.Leads custody loaded fun _ final now =>
      ∃ answer between, call.answer.Yields custody answer between ∧
        (carryOut answer.plan).Yields between () final ∧
        final.kernel.spaces = between.kernel.spaces ∧
        now = (answer.plan.bind Switch.directory).or loaded := by
  have answered : call.answer.Leads custody loaded fun answer between now =>
      call.answer.Yields custody answer between ∧ now = loaded :=
    (call.passive_answer notPerform notSwitch).leads fun _ _ yields _ => ⟨yields, rfl⟩
  refine Operation.leads_bind answered fun answer between now so => ?_
  rcases so with ⟨yields, rfl⟩
  intro value final effects run
  rcases carryOut_leads answer.plan value final effects run with ⟨spaces, named⟩
  exact ⟨answer, between, yields, ⟨effects, run⟩, spaces, named⟩

theorem switchAddressSpace_prompt_leads (directory : Directory) :
    (Call.switchAddressSpace directory).prompt.Leads custody loaded fun _ final now =>
      final.kernel.spaces.current = some directory ∧ now = some directory := by
  have answered : (Call.switchAddressSpace directory).answer.Leads custody loaded
      fun answer between now =>
        answer.plan = none ∧ between.kernel.spaces.current = some directory ∧
          now = some directory := by
    refine Operation.leads_bind
      (leads_onKernel (Kernel.switchAddressSpace_leads directory)) fun _ between now switched => ?_
    intro answer after effects run
    cases run
    exact ⟨rfl, switched⟩
  refine Operation.leads_bind answered fun answer between now so => ?_
  rcases so with ⟨noPlan, active, rfl⟩
  intro value final effects run
  rcases carryOut_leads answer.plan value final effects run with ⟨spaces, named⟩
  rw [noPlan] at named
  exact ⟨spaces ▸ active, named⟩

theorem sparesIdle_of_nap {call : Call} (noNap : call.nap = none) : custody.SparesIdle call := by
  intro milliseconds nap
  rw [noNap] at nap
  cases nap

/-- A prompt call is one that spares the idle process, or two with the plan that is carried out. -/
theorem sparing_of_prompt (permitted : custody.Permitted call) (spares : custody.SparesIdle call)
    (step : call.prompt.Yields custody () final) : ∃ calls, Sparing custody calls final := by
  rcases yields_prompt.mp step with ⟨answer, between, answered, performed⟩
  have acted := act_of_answer answered
  rcases carryOut_cases performed with ⟨-, rfl⟩ | ⟨switch, kernel, -, run, rfl⟩
  · exact ⟨_, .cons permitted spares acted .nil⟩
  · have perform : (Call.perform switch).act.Yields between () { between with kernel } :=
      yields_onKernel.mpr ⟨kernel, run, rfl⟩
    have allowed : between.Permitted (.perform switch) := trivial
    exact ⟨_, .cons permitted spares acted
      (.cons allowed (sparesIdle_of_nap rfl) perform .nil)⟩

theorem atHome_of_carryOut (live : CurrentLive custody.kernel.table)
    (atHome : custody.kernel.AtHome) (performed : (carryOut plan).Yields custody () final) :
    final.kernel.AtHome := by
  rcases carryOut_cases performed with ⟨-, rfl⟩ | ⟨switch, kernel, -, run, rfl⟩
  · exact atHome
  · have steady := Dispatcher.steady_apply switch custody.kernel.cpu.registers custody.kernel.table
    rw [Kernel.perform_outcome run]
    exact atHome.congr live steady.current (fun slot _ => steady.occupant slot) rfl

end Leading

/-- The address space that counts as active is the one that is loaded, each frame has one owner,
and there is somebody to run. -/
structure Rooted (custody : Custody) (root : Directory) (loaded : Option Directory) : Prop where
  active : custody.kernel.spaces.current = loaded
  isLoaded : loaded ≠ none
  reached : custody.kernel.Reached
  accounted : custody.Accounted root
  attended : custody.kernel.dispatcher.Attended custody.kernel.idle

section Rooted

variable {start final : Custody} {call : Call} {root : Directory}
  {loaded now : Option Directory}

theorem Rooted.sparing {calls : List Call} (rooted : start.Rooted root loaded)
    (sparing : Sparing start calls final) (active : final.kernel.spaces.current = now)
    (isLoaded : now ≠ none) : final.Rooted root now := by
  rcases sparing.attended rooted.reached rooted.attended with ⟨reached, attended, idle⟩
  exact ⟨active, isLoaded, reached, sparing.accounted rooted.accounted, idle ▸ attended⟩

/-- A prompt call leaves loaded what counts as active. -/
theorem Rooted.prompt (rooted : start.Rooted root loaded) (call : Call)
    (permitted : start.Permitted call) (spares : start.SparesIdle call)
    (notPerform : ∀ switch, call ≠ .perform switch)
    {effects : List Effect} (step : call.prompt start = .ok ⟨(), final, effects⟩) :
    final.Rooted root (rootAfter loaded effects) ∧
      ((∀ directory, call ≠ .switchAddressSpace directory) →
        start.kernel.AtHome → final.kernel.AtHome) := by
  rcases sparing_of_prompt permitted spares ⟨effects, step⟩ with ⟨calls, sparing⟩
  by_cases switching : ∃ directory, call = .switchAddressSpace directory
  · rcases switching with ⟨directory, rfl⟩
    rcases switchAddressSpace_prompt_leads directory () final effects step with ⟨active, isRoot⟩
    refine ⟨rooted.sparing sparing (active.trans isRoot.symm) ?_, fun no => absurd rfl (no _)⟩
    rw [isRoot]
    exact Option.some_ne_none directory
  · have notSwitch : ∀ directory, call ≠ .switchAddressSpace directory :=
      fun directory same => switching ⟨directory, same⟩
    rcases call.prompt_leads notPerform notSwitch () final effects step with
      ⟨answer, between, answered, performed, spaces, isRoot⟩
    have acted := act_of_answer answered
    rcases (answered_of_answer rooted.reached.intact notPerform answered).settles rooted.accounted
      (attends_of_act rooted.reached rooted.attended spares acted) notSwitch with ⟨active, settles⟩
    have live := (Kernel.Reached.served rooted.reached acted).intact.housed.toSound.currentLive
    refine ⟨rooted.sparing sparing ?_ ?_, fun _ atHome => ?_⟩
    · rw [isRoot, spaces, active, rooted.active]
    · rw [isRoot]
      simp [rooted.isLoaded]
    · exact atHome_of_carryOut live (settles atHome) performed

end Rooted

/-- Where a sequence of calls leads, and which address space is loaded then. Users keep to the
rules, the idle process is not put to sleep, and each plan is carried out at once. Between calls,
the processor may do whatever it likes. -/
inductive PromptRun :
    Custody → Option Directory → List Call → Custody → Option Directory → Prop where
  | nil {custody : Custody} {loaded : Option Directory} :
      PromptRun custody loaded [] custody loaded
  | ran {start final : Custody} {loaded last : Option Directory} {rest : List Call} (cpu : Cpu)
      (onward :
        PromptRun { start with kernel := { start.kernel with cpu } } loaded rest final last) :
      PromptRun start loaded rest final last
  | cons {start between final : Custody} {loaded last : Option Directory} {call : Call}
      {rest : List Call} {effects : List Effect} (permitted : start.Permitted call)
      (spares : start.SparesIdle call) (notPerform : ∀ switch, call ≠ .perform switch)
      (step : call.prompt start = .ok ⟨(), between, effects⟩)
      (onward : PromptRun between (rootAfter loaded effects) rest final last) :
      PromptRun start loaded (call :: rest) final last

section PromptRun

variable {start final custody : Custody} {calls : List Call} {root : Directory}
  {loaded last : Option Directory}

theorem PromptRun.rooted (run : PromptRun start loaded calls final last)
    (rooted : start.Rooted root loaded) :
    final.Rooted root last ∧ ((∀ directory, .switchAddressSpace directory ∉ calls) →
      start.kernel.AtHome → final.kernel.AtHome) := by
  induction run with
  | nil => exact ⟨rooted, fun _ => id⟩
  | ran cpu onward ih => exact ih (rooted.sparing (.ran cpu .nil) rooted.active rooted.isLoaded)
  | cons permitted spares notPerform step onward ih =>
      rcases rooted.prompt _ permitted spares notPerform step with ⟨rootedBetween, settles⟩
      rcases ih rootedBetween with ⟨rootedFinal, settlesFinal⟩
      refine ⟨rootedFinal, fun noSwitch atHome => ?_⟩
      have here : ∀ directory, _ ≠ Call.switchAddressSpace directory :=
        fun directory same => noSwitch directory (same ▸ List.mem_cons_self)
      exact settlesFinal (fun directory later => noSwitch directory (List.mem_cons_of_mem _ later))
        (settles here atHome)

theorem rooted_of_init {before started : Kernel} {memory : BootMemory} {idleEntry : UInt32}
    {config : SchedulerConfig} {effects : List Effect}
    (begun : Kernel.init memory idleEntry config before = .ok ⟨.ok (), started, effects⟩)
    (earlier : Option Directory) :
    ∃ root, (ofKernel started).Rooted root (rootAfter earlier effects) ∧ started.AtHome := by
  have yields : (Kernel.init memory idleEntry config).Yields before (.ok ()) started :=
    ⟨effects, begun⟩
  rcases Kernel.accounted_of_init yields with ⟨root, accounted⟩
  rcases Kernel.init_leads (.ok ()) started effects begun () rfl with ⟨isLoaded, active⟩
  have outcome := Kernel.init_outcome yields
  rcases Kernel.lonely_of_begun outcome with ⟨-, _, -, noCurrent, -⟩
  refine ⟨root, ⟨active, isLoaded, .begun yields, accounted, Kernel.attended_of_begun outcome⟩, ?_⟩
  intro process isProcess
  rw [currentProcess, noCurrent] at isProcess
  cases isProcess

/-- After bring-up and whatever users do by the rules, if plans are carried out at once and the idle
process is not put to sleep: the address space that counts as active is the one that was loaded
last, its frame is in use, and it is the kernel's, that of a live process or one that was made for
a user. If nobody asks for another one, it is that of the process that has the processor. -/
theorem PromptRun.active_is_loaded {before started : Kernel} {memory : BootMemory}
    {idleEntry : UInt32} {config : SchedulerConfig} {effects : List Effect}
    {earlier : Option Directory}
    (begun : Kernel.init memory idleEntry config before = .ok ⟨.ok (), started, effects⟩)
    (run : PromptRun (ofKernel started) (rootAfter earlier effects) calls custody last) :
    ∃ root directory, custody.kernel.spaces.kernel = some root ∧
      custody.kernel.spaces.current = some directory ∧ last = some directory ∧
      custody.kernel.spaces.frames.isSet directory.frame.number.val = true ∧
      (directory = root ∨
        (∃ process ∈ custody.kernel.table.live, process.resources.directory = some directory) ∨
        directory ∈ custody.created) ∧
      ((∀ directory, .switchAddressSpace directory ∉ calls) →
        ∀ process, custody.kernel.table.currentProcess = some process →
          process.resources.directory = some directory) := by
  rcases rooted_of_init begun earlier with ⟨root, starts, atHome⟩
  rcases run.rooted starts with ⟨rooted, settles⟩
  rcases Option.ne_none_iff_exists'.mp rooted.isLoaded with ⟨directory, isLast⟩
  have active := rooted.active.trans isLast
  have accounted := rooted.accounted
  have owned := accounted.active directory active
  refine ⟨root, directory, accounted.isKernel, active, isLast, ?_, ?_, ?_⟩
  · apply accounted.owned.accounts.used
    exact List.mem_append_right _
      (List.mem_flatMap.mpr ⟨directory, owned, AddressSpaces.frame_mem_privateFrames⟩)
  · rcases List.mem_cons.mp owned with isRoot | mem
    · exact Or.inl isRoot
    rcases List.mem_append.mp mem with given | made
    · rw [directories_eq_live] at given
      rcases List.mem_filterMap.mp given with ⟨process, listed, own⟩
      exact Or.inr (Or.inl ⟨process, (List.mem_filter.mp listed).1, own⟩)
    · exact Or.inr (Or.inr made)
  · intro noSwitch process isProcess
    rw [settles noSwitch atHome process isProcess, active]

theorem prompt_of_yields (custody : Custody) (call : Call) {Value : Type}
    {action : Operation Kernel Value} {keep : Value → Answer} {value : Value} {kernel : Kernel}
    (kept : call.answer = do return keep (← onKernel action))
    (run : action.Yields custody.kernel value kernel) :
    ∃ final effects, call.prompt custody = .ok ⟨(), final, effects⟩ := by
  rcases yields_carryOut (keep value).plan { custody with kernel } with ⟨after, performed⟩
  have answered : call.answer.Yields custody (keep value) { custody with kernel } := by
    rw [kept]
    exact yields_kept run rfl
  exact ⟨_, yields_prompt.mpr ⟨_, _, answered, performed⟩⟩

/-- The idle process makes way for a new process, and whoever has the processor then ends. -/
theorem PromptRun.active_is_loaded_after_exit :
    ∃ started effects custody last directory,
      Kernel.init ⟨640, 15360⟩ 0x100000 {} (.new true) = .ok ⟨.ok (), started, effects⟩ ∧
      PromptRun (ofKernel started) (rootAfter none effects)
        [.start, .spawn "p" 0x108000 1, .yield, .exit 0] custody last ∧
      last = some directory ∧ custody.kernel.spaces.current = some directory := by
  rcases Kernel.rested_with_16000 {} with ⟨started, _, _, _, _, ⟨effects, begun⟩, asked, -⟩
  rcases rooted_of_init begun none with ⟨root, rooted, -⟩
  rcases prompt_of_yields (ofKernel started) .start rfl asked with ⟨idling, _, starts⟩
  have idles := (rooted.prompt .start trivial (sparesIdle_of_nap rfl) (by simp) starts).1
  rcases Kernel.yields_spawn idles.accounted "p" 0x108000 1 with ⟨_, _, asked⟩
  rcases prompt_of_yields idling (.spawn "p" 0x108000 1) rfl asked with ⟨created, _, spawns⟩
  have spawned :=
    (idles.prompt (.spawn "p" 0x108000 1) trivial (sparesIdle_of_nap rfl) (by simp) spawns).1
  rcases spawned.accounted.queued with ⟨slots, queued⟩
  rcases Kernel.yields_decision (Dispatcher.yields_yield queued.toLinked) with ⟨_, _, asked⟩
  rcases prompt_of_yields created .yield rfl asked with ⟨away, _, yields⟩
  have yielded := (spawned.prompt .yield trivial (sparesIdle_of_nap rfl) (by simp) yields).1
  rcases Kernel.Accounted.yields_exit yielded.accounted 0 with ⟨_, _, asked, -⟩
  rcases prompt_of_yields away (.exit 0) rfl asked with ⟨final, _, exits⟩
  have runs : ∃ last, PromptRun (ofKernel started) (rootAfter none effects)
      [.start, .spawn "p" 0x108000 1, .yield, .exit 0] final last :=
    ⟨_, .cons trivial (sparesIdle_of_nap rfl) (by simp) starts <|
      .cons trivial (sparesIdle_of_nap rfl) (by simp) spawns <|
      .cons trivial (sparesIdle_of_nap rfl) (by simp) yields <|
      .cons trivial (sparesIdle_of_nap rfl) (by simp) exits .nil⟩
  rcases runs with ⟨last, run⟩
  rcases PromptRun.active_is_loaded begun run with ⟨_, directory, -, active, isLast, -⟩
  exact ⟨started, effects, final, last, directory, begun, run, isLast, active⟩

end PromptRun

end Custody

end KernelCore
