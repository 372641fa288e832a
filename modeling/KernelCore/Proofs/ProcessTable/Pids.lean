import KernelCore.Proofs.Scheduler.Stacks

/-!
# How ids are given out

Ids follow each other in a cycle: 1, 2, and so on up to the last word, and then 1 again.
`ProcessTable.ahead` is a place in this cycle, counted from another one. The search for an unused id
goes along the cycle, and each place where it does not stop is the id of another live process; so it
stops at the first unused id, after no more failed tries than there are live processes. It does so
wherever in the cycle it begins, and live processes keep ids of their own when ids start over.
-/

namespace KernelCore.ProcessTable

/-- The word that many steps after a word in the cycle of ids, which leaves out zero. -/
def ahead (word : UInt32) (steps : Nat) : UInt32 :=
  .ofNat ((word.toNat - 1 + steps) % (2 ^ 32 - 1) + 1)

section Cycle

variable {word : UInt32} {steps other : Nat}

theorem toNat_ahead (word : UInt32) (steps : Nat) :
    (ahead word steps).toNat = (word.toNat - 1 + steps) % (2 ^ 32 - 1) + 1 := by
  have below := Nat.mod_lt (word.toNat - 1 + steps) (show 0 < 2 ^ 32 - 1 by decide)
  exact UInt32.toNat_ofNat_of_lt' (by change _ < 2 ^ 32; omega)

theorem ahead_ne_zero (word : UInt32) (steps : Nat) : ahead word steps ≠ 0 := by
  rw [ne_eq, ← UInt32.toNat_inj, toNat_ahead]
  exact Nat.succ_ne_zero _

theorem ahead_zero (nonzero : word ≠ 0) : ahead word 0 = word := by
  have positive : word.toNat ≠ 0 := fun zero => nonzero (UInt32.toNat_inj.mp zero)
  have small := word.toNat_lt
  rw [← UInt32.toNat_inj, toNat_ahead]
  omega

/-- The cycle is the one in which the search goes on. -/
theorem successor_ahead (word : UInt32) (steps : Nat) :
    successor (ahead word steps) = ahead word (steps + 1) := by
  have one : (1 : UInt32).toNat = 1 := rfl
  rw [← UInt32.toNat_inj, successor, UInt32.toNat_max, UInt32.toNat_add, toNat_ahead, toNat_ahead,
    one]
  omega

/-- Only after a full turn does the cycle come back. -/
theorem ahead_injective (few : steps < 2 ^ 32 - 1) (also : other < 2 ^ 32 - 1)
    (same : ahead word steps = ahead word other) : steps = other := by
  rw [← UInt32.toNat_inj, toNat_ahead, toNat_ahead] at same
  omega

end Cycle

section Live

variable {table : ProcessTable} {process : ProcessRecord} {pid : Pid}

theorem live_eq (table : ProcessTable) :
    table.live =
      ((List.finRange Layout.maxProcesses).filter fun slot => (table.process slot).isLive).map
        table.process := by
  have all : table.processes.toList =
      (List.finRange Layout.maxProcesses).map table.process := by
    apply List.ext_getElem
    · simp
    · intro place _ _
      simp [ProcessTable.process]
  rw [live, all, List.filter_map]
  rfl

theorem mem_live :
    process ∈ table.live ↔ ∃ slot, table.process slot = process ∧ process.isLive = true := by
  simp only [live_eq, List.mem_map, List.mem_filter, List.mem_finRange, true_and]
  constructor
  · rintro ⟨slot, isLive, rfl⟩
    exact ⟨slot, rfl, isLive⟩
  · rintro ⟨slot, rfl, isLive⟩
    exact ⟨slot, isLive, rfl⟩

theorem size_le (table : ProcessTable) : table.size ≤ Layout.maxProcesses := by
  rw [size, live]
  exact (List.length_filter_le _ _).trans Vector.length_toList.le

theorem nodup_live : (table.live.map ProcessRecord.pid).Nodup ↔ table.Distinct := by
  have slots : ((List.finRange Layout.maxProcesses).filter fun slot =>
      (table.process slot).isLive).Nodup := (List.nodup_finRange _).filter _
  rw [live_eq, List.map_map, List.nodup_map_iff_inj_on slots]
  simp only [List.mem_filter, List.mem_finRange, true_and, Function.comp_apply]
  constructor
  · intro own slot other pid resources provided here there
    rcases ProcessRecord.identity_eq_some.mp here with ⟨isLive, same, -⟩
    rcases ProcessRecord.identity_eq_some.mp there with ⟨alsoLive, alsoSame, -⟩
    exact own slot isLive other alsoLive (same.trans alsoSame.symm)
  · intro distinct slot isLive other alsoLive same
    exact distinct slot other _ _ _ (ProcessRecord.identity_eq_some.mpr ⟨isLive, rfl, rfl⟩)
      (ProcessRecord.identity_eq_some.mpr ⟨alsoLive, same.symm, rfl⟩)

theorem slotOf_eq_none_iff :
    table.slotOf pid = none ↔ ∀ process ∈ table.live, process.pid ≠ pid := by
  constructor
  · intro unused process mem same
    rcases mem_live.mp mem with ⟨slot, rfl, isLive⟩
    exact occupant_ne_of_slotOf unused slot _
      (ProcessRecord.identity_eq_some.mpr ⟨isLive, same, rfl⟩)
  · intro unused
    rw [slotOf, Vector.findFinIdx?_eq_none_iff]
    intro process mem passed
    rw [Bool.and_eq_true, beq_iff_eq] at passed
    exact unused process (List.mem_filter.mpr ⟨Vector.mem_toList_iff.mpr mem, passed.1⟩) passed.2

end Live

section Search

variable {table : ProcessTable} {start : UInt32} {steps begun : Nat}

/-- The search stops at the first unused id, if it is given that many tries. -/
theorem searchPid_ahead (unused : table.slotOf ⟨ahead start steps⟩ = none)
    (used : ∀ earlier < steps, table.slotOf ⟨ahead start earlier⟩ ≠ none) (tries : Nat)
    (early : begun ≤ steps) :
    table.searchPid tries (ahead start begun) =
      if steps < begun + tries then some (⟨ahead start steps⟩, ahead start (steps + 1))
      else none := by
  induction tries generalizing begun with
  | zero => rw [if_neg (by omega), searchPid]
  | succ tries ih =>
      rw [searchPid, successor_ahead]
      by_cases here : begun = steps
      · rw [here, if_pos unused, if_pos (by omega)]
      · have earlier : begun < steps := by omega
        rw [if_neg (used begun earlier), ih earlier, Nat.succ_add_eq_add_succ]

/-- Each place of the cycle up to the first unused one takes a live process of its own. -/
theorem exists_first_unused (table : ProcessTable) (start : UInt32) :
    ∃ steps ≤ table.size, table.slotOf ⟨ahead start steps⟩ = none ∧
      ∀ earlier < steps, table.slotOf ⟨ahead start earlier⟩ ≠ none := by
  have some_unused : ∃ steps ≤ table.size, table.slotOf ⟨ahead start steps⟩ = none := by
    by_contra noneUnused
    have taken : (List.range (table.size + 1)).map (fun steps => Pid.mk (ahead start steps)) ⊆
        table.live.map ProcessRecord.pid := by
      intro pid mem
      rcases List.mem_map.mp mem with ⟨steps, few, rfl⟩
      by_contra free
      refine noneUnused ⟨steps, Nat.le_of_lt_succ (List.mem_range.mp few), ?_⟩
      rw [slotOf_eq_none_iff]
      exact fun process live same => free (List.mem_map.mpr ⟨process, live, same⟩)
    have bound := table.size_le
    have limit : Layout.maxProcesses = 64 := rfl
    have differ : ((List.range (table.size + 1)).map
        fun steps => Pid.mk (ahead start steps)).Nodup := by
      refine List.Nodup.map_on ?_ List.nodup_range
      intro steps few other also same
      rw [List.mem_range] at few also
      exact ahead_injective (by omega) (by omega) (Pid.mk.inj same)
    have few := (List.subperm_of_subset differ taken).length_le
    rw [List.length_map, List.length_map, List.length_range] at few
    exact Nat.lt_irrefl _ few
  rcases some_unused with ⟨bound, few, unused⟩
  refine ⟨Nat.find ⟨bound, unused⟩, (Nat.find_min' _ unused).trans few,
    Nat.find_spec (p := fun steps => table.slotOf ⟨ahead start steps⟩ = none) ⟨bound, unused⟩,
    fun earlier before => Nat.find_min _ before⟩

end Search

/-- Live processes have ids of their own, and zero is neither one of them nor where the search for
the next one begins. -/
structure WellNumbered (table : ProcessTable) : Prop where
  distinct : (table.live.map ProcessRecord.pid).Nodup
  nonzero : ∀ process ∈ table.live, process.pid.word ≠ 0
  start : table.nextPid ≠ 0

/-- The next id is the one that many steps ahead: the first that no live process has. The search
goes on to it and no further, and then one more step is all that has changed. -/
structure Allots (table : ProcessTable) (steps : Nat) : Prop where
  few : steps ≤ table.size
  answer : allocatePid table =
    .ok ⟨⟨ahead table.nextPid steps⟩, { table with nextPid := ahead table.nextPid (steps + 1) }, []⟩
  nonzero : ahead table.nextPid steps ≠ 0 ∧ ahead table.nextPid (steps + 1) ≠ 0
  unused : ∀ process ∈ table.live, process.pid ≠ ⟨ahead table.nextPid steps⟩
  used : ∀ earlier < steps, ∃ process ∈ table.live, process.pid = ⟨ahead table.nextPid earlier⟩
  tries : ∀ tries, table.searchPid tries table.nextPid =
    if steps < tries then some (⟨ahead table.nextPid steps⟩, ahead table.nextPid (steps + 1))
    else none

/-- What changes which processes there are, and which of them has the processor. -/
inductive Change where
  | create (name : String) (entry priority : UInt32) (resources : ProcessResources)
  | exit (code : Int32)
  /-- The scheduler gives the processor to the process in a slot. -/
  | setCurrent (slot : Slot)
  | wakeSleepers (now : UInt64)
  | reset (timeSlice : UInt32)

def Change.act : Change → Operation ProcessTable Unit
  | .create name entry priority resources =>
      discard (ProcessTable.create name entry priority resources).result
  | .exit code => discard (ProcessTable.exit code)
  | .setCurrent slot => modify fun table => { table with current := some slot }
  | .wakeSleepers now => ProcessTable.wakeSleepers now
  | .reset timeSlice => set (ProcessTable.empty timeSlice)

section Numbers

variable {before after table : ProcessTable}

theorem WellNumbered.allots (numbered : table.WellNumbered) : ∃ steps, table.Allots steps := by
  rcases exists_first_unused table table.nextPid with ⟨steps, few, unused, used⟩
  have tries := fun tries => searchPid_ahead unused used tries (Nat.zero_le steps)
  simp only [ahead_zero numbered.start, Nat.zero_add] at tries
  refine ⟨steps, few, ?_, ⟨ahead_ne_zero _ _, ahead_ne_zero _ _⟩, slotOf_eq_none_iff.mp unused, ?_,
    tries⟩
  · have found := (tries (Layout.maxProcesses + 1)).trans
      (if_pos (Nat.lt_succ_of_le (few.trans table.size_le)))
    rw [allocatePid, Operation.get_bind_apply, Operation.get_bind_apply, found]
    rfl
  · intro earlier before
    have taken := used earlier before
    rw [ne_eq, slotOf_eq_none_iff] at taken
    push Not at taken
    exact taken

/-- Where nobody comes, ids stay what they were. -/
theorem WellNumbered.of_occupants (numbered : before.WellNumbered)
    (stays : ∀ slot occupant, after.occupant slot = some occupant →
      before.occupant slot = some occupant)
    (start : after.nextPid ≠ 0) : after.WellNumbered where
  distinct := by
    have distinct := nodup_live.mp numbered.distinct
    exact nodup_live.mpr fun slot other pid resources provided here there =>
      distinct slot other pid resources provided (stays _ _ here) (stays _ _ there)
  nonzero process mem := by
    rcases mem_live.mp mem with ⟨slot, rfl, isLive⟩
    have here := stays slot _ (ProcessRecord.identity_eq_some.mpr ⟨isLive, rfl, rfl⟩)
    rcases ProcessRecord.identity_eq_some.mp here with ⟨wasLive, same, -⟩
    rw [← same]
    exact numbered.nonzero _ (mem_live.mpr ⟨slot, rfl, wasLive⟩)
  start := start

/-- A new process gets an id that nobody has, and zero is left out. -/
theorem WellNumbered.create (numbered : before.WellNumbered) {name : String}
    {entry priority : UInt32} {resources : ProcessResources} {reply : Except ProcessError Pid}
    (run : (create name entry priority resources).Yields before reply after) :
    after.WellNumbered := by
  rcases create_records run with ⟨-, -, rfl⟩ | ⟨slot, pid, next, rfl, -, searched, rethreaded⟩
  · exact numbered
  rcases create_cases run with ⟨_, refuted, -⟩ | ⟨place, given, same, entered⟩
  · cases refuted
  cases same
  rcases numbered.allots with ⟨steps, allots⟩
  have found := (allots.tries (Layout.maxProcesses + 1)).trans
    (if_pos (Nat.lt_succ_of_le (allots.few.trans before.size_le)))
  rw [searched, Option.some.injEq, Prod.mk.injEq] at found
  rcases found with ⟨rfl, rfl⟩
  refine ⟨nodup_live.mpr ((Population.entered entered).distinct (nodup_live.mp numbered.distinct)),
    ?_, ?_⟩
  · intro process mem
    rcases mem_live.mp mem with ⟨found, rfl, isLive⟩
    have here := ProcessRecord.identity_eq_some.mpr ⟨isLive, rfl, rfl⟩
    by_cases new : found = place
    · have given := entered.here
      rw [← new, occupant, here, Option.some.injEq, Prod.mk.injEq] at given
      rw [given.1]
      exact allots.nonzero.1
    · have stayed := (entered.others found new).symm.trans here
      rcases ProcessRecord.identity_eq_some.mp stayed with ⟨wasLive, same, -⟩
      rw [← same]
      exact numbered.nonzero _ (mem_live.mpr ⟨found, rfl, wasLive⟩)
  · rw [rethreaded.nextPid]
    exact allots.nonzero.2

theorem WellNumbered.exit (numbered : before.WellNumbered) {code : Int32}
    {reply : Option ProcessRecord} (run : (exit code).Yields before reply after) :
    after.WellNumbered := by
  rcases exit_records run with ⟨-, -, rfl⟩ | ⟨slot, between, -, rethreaded, rfl, -⟩
  · exact numbered
  refine numbered.of_occupants ?_ ?_
  · intro other occupied here
    rcases rethreaded.process other with ⟨next, record⟩
    by_cases ended : slot = other
    · rw [← ended, occupant_update_self] at here
      cases here
    · rw [occupant_update_of_ne ended, occupant, record] at here
      exact here
  · exact rethreaded.nextPid ▸ numbered.start

theorem wellNumbered_empty (timeSlice : UInt32) : (empty timeSlice).WellNumbered where
  distinct := nodup_live.mpr fun slot other pid resources provided here => by
    rw [occupant_empty] at here
    cases here
  nonzero process mem := by
    rcases mem_live.mp mem with ⟨slot, rfl, isLive⟩
    rw [process_empty] at isLive
    cases isLive
  start := (by decide : (1 : UInt32) ≠ 0)

/-- Each change leaves ids in order. -/
theorem Change.act_numbered (change : Change) (numbered : before.WellNumbered)
    (run : change.act.Yields before () after) : after.WellNumbered := by
  cases change with
  | create name entry priority resources =>
      rcases Operation.yields_map.mp run with ⟨reply, created, -⟩
      exact numbered.create created
  | exit code =>
      rcases Operation.yields_map.mp run with ⟨reply, exited, -⟩
      exact numbered.exit exited
  | setCurrent slot =>
      rcases Operation.yields_modify.mp run with rfl
      exact numbered.of_occupants (fun _ _ here => here) numbered.start
  | wakeSleepers now =>
      have steady := steady_wakeSleepers run
      have kept : after.nextPid = before.nextPid := by
        simp [act, ProcessTable.wakeSleepers, and_assoc] at run
        rw [run]
      refine numbered.of_occupants ?_ (kept ▸ numbered.start)
      intro slot occupied here
      rw [← steady.occupant]
      exact here
  | reset timeSlice =>
      rcases Operation.yields_set.mp run with rfl
      exact wellNumbered_empty timeSlice

end Numbers

/-- Wherever in the cycle of ids the search begins, it ends at the first one that no live process
has, after at most one try for each live process and one more. Whatever then happens to the table,
live processes have ids of their own, none of them zero; the next search ends likewise, and a
process can always be created or refused. -/
theorem allots_first_unused (table : ProcessTable) (numbered : table.WellNumbered) :
    (∃ steps, table.Allots steps) ∧
      ∀ (changes : List Change) (after : ProcessTable),
        (changes.forM Change.act).Yields table () after →
        after.WellNumbered ∧ (∃ steps, after.Allots steps) ∧
          ∀ name entry priority resources, ∃ reply later,
            (create name entry priority resources).Yields after reply later := by
  refine ⟨numbered.allots, fun changes after run => ?_⟩
  have kept : after.WellNumbered :=
    run.keeps (fun change _ _ holds step => change.act_numbered holds step) numbered
  exact ⟨kept, kept.allots, yields_create after⟩

/-- Two live processes, under the last word and under one, with the search at the last word. -/
def wrapping : ProcessTable :=
  (({ empty 10 with nextPid := 0xFFFFFFFF }).update 0 fun _ =>
    .fresh ⟨0xFFFFFFFF⟩ "last" 0 1 10 {}).update 1 fun _ => .fresh ⟨1⟩ "first" 0 1 10 {}

/-- The search goes past both and ends at two. -/
theorem allots_first_unused_of_wrapping :
    wrapping.WellNumbered ∧ wrapping.Allots 2 ∧ ahead wrapping.nextPid 2 = 2 := by
  have numbered : wrapping.WellNumbered :=
    ⟨by decide +kernel, by decide +kernel, by decide +kernel⟩
  rcases (allots_first_unused wrapping numbered).1 with ⟨steps, allots⟩
  have more : ¬steps < 2 := by
    intro few
    have found := (allots.tries 2).trans (if_pos few)
    have missed : wrapping.searchPid 2 wrapping.nextPid = none := by decide +kernel
    rw [missed] at found
    cases found
  have done : steps < 3 := by
    by_contra many
    have missed := (allots.tries 3).trans (if_neg many)
    have found : wrapping.searchPid 3 wrapping.nextPid = some (⟨2⟩, 3) := by decide +kernel
    rw [found] at missed
    cases missed
  have two : steps = 2 := by omega
  exact ⟨numbered, two ▸ allots, by decide +kernel⟩

end KernelCore.ProcessTable
