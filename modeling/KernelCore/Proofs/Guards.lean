import KernelCore.Console
import KernelCore.Proofs.Masking

/-!
# Guards one after another and inside one another

A guard remembers the flag that it found, and nobody but the guard knows. If guards are dropped in
another order than that in which they were made, the one that found interrupts on may be dropped
before the others, and then interrupts are on under live guards. What is nevertheless true for every
order is a matter of counting: if interrupts were on at first, then at any time either they are on,
or exactly one live guard has found them on and will turn them on again. If they were off at first,
neither is ever the case. This is `Conserved`.

A `GuardScript` is what can be done with guards. A closure that is run under a guard may do all of
this as well, so scripts are trees. Running a script tells what can be seen before each step and in
the end, inside closures too. If a script is `Nested`, the guards that are live are always the first
one, which found the flag as it was, and others that found it off.

Printing is done under one guard and a lock. A `Printer` hands what is printed to a writer that may
refuse anything at any time, and remembers the circumstances of every write.
-/

namespace KernelCore

open Operation

/-- The events that turn interrupts off or on. -/
def maskings (events : List Event) : List Event :=
  events.filter Event.masks

/-- Interrupts are turned off when they are on and on when they are off, by turns, which leads from
the first flag to the last. -/
inductive ByTurns : Bool → List Event → Bool → Prop where
  | nil {flag : Bool} : ByTurns flag [] flag
  | off {events : List Event} {last : Bool} :
      ByTurns false events last → ByTurns true (.disableInterrupts :: events) last
  | on {events : List Event} {last : Bool} :
      ByTurns true events last → ByTurns false (.enableInterrupts :: events) last

/-- Interrupts are on, or one guard is live that will turn them on again, if they were on at first;
otherwise neither is the case. `waiting` counts the guards that found interrupts on. -/
def Conserved (enabled flag : Bool) (waiting : Nat) : Prop :=
  flag.toNat + waiting = enabled.toNat

/-- What the processor is told on the way from one flag to another, if interrupts were on at first
or off. -/
structure Passage (enabled flag : Bool) (events : List Event) (last : Bool) : Prop where
  byTurns : ByTurns flag (maskings events) last
  silent : enabled = false → maskings events = []

section Passages

variable {enabled flag found last : Bool} {waiting : Nat} {events early late : List Event}

theorem maskings_append (events more : List Event) :
    maskings (events ++ more) = maskings events ++ maskings more :=
  List.filter_append events more

theorem ByTurns.append {between : Bool} (first : ByTurns flag early between)
    (second : ByTurns between late last) : ByTurns flag (early ++ late) last := by
  induction first with
  | nil => exact second
  | off _ ih => exact .off (ih second)
  | on _ ih => exact .on (ih second)

theorem Passage.of_plain (plain : ∀ event ∈ events, event.masks = false) :
    Passage enabled flag events flag := by
  have none : maskings events = [] :=
    List.filter_eq_nil_iff.mpr fun event mem => Bool.eq_false_iff.mp (plain event mem)
  exact ⟨none ▸ .nil, fun _ => none⟩

theorem Passage.trans {between : Bool} (first : Passage enabled flag early between)
    (second : Passage enabled between late last) : Passage enabled flag (early ++ late) last := by
  refine ⟨?_, fun disabled => ?_⟩
  · rw [maskings_append]
    exact first.byTurns.append second.byTurns
  · rw [maskings_append, first.silent disabled, second.silent disabled]
    rfl

/-- A guard that is made takes over from the flag. -/
theorem Conserved.make (conserved : Conserved enabled flag waiting) :
    Conserved enabled false (waiting + flag.toNat) := by
  simp only [Conserved, Bool.toNat_false] at conserved ⊢
  omega

theorem Conserved.passage_make (conserved : Conserved enabled flag waiting) :
    Passage enabled flag (if flag then [.disableInterrupts] else []) false := by
  cases flag with
  | false => exact Passage.of_plain (by simp)
  | true =>
      refine ⟨.off .nil, ?_⟩
      rintro rfl
      simp [Conserved] at conserved

/-- A guard that is dropped gives back to the flag what it took over. -/
theorem Conserved.drop (conserved : Conserved enabled flag (waiting + found.toNat)) :
    Conserved enabled (flag || found) waiting := by
  cases enabled <;> cases flag <;> cases found <;> simp_all [Conserved]

theorem Conserved.passage_drop (conserved : Conserved enabled flag (waiting + found.toNat)) :
    Passage enabled flag (if found then [.enableInterrupts] else []) (flag || found) := by
  cases found with
  | false =>
      rw [Bool.or_false]
      exact Passage.of_plain (by simp)
  | true =>
      cases enabled <;> cases flag <;> simp [Conserved] at conserved
      exact ⟨.on .nil, fun never => Bool.noConfusion never⟩

/-- Without guards that are waiting, the flag is what it was at first. -/
theorem Conserved.eq_enabled (conserved : Conserved enabled flag 0) : flag = enabled := by
  cases enabled <;> cases flag <;> simp_all [Conserved]

theorem bracket_eq (enabled : Bool) (events : List Event) :
    bracket enabled events =
      (if enabled then [.disableInterrupts] else []) ++
        (events ++ if enabled then [.enableInterrupts] else []) := by
  cases enabled with
  | false => exact (List.append_nil events).symm
  | true => rfl

end Passages

/-- What can be done with guards, one thing after another. -/
inductive GuardScript where
  | done
  | make (rest : GuardScript)
  /-- Drops any of the live guards, by its place among them. -/
  | drop (index : Nat) (rest : GuardScript)
  /-- Has effects that leave the flag alone. -/
  | other (effects : List Effect) (plain : ∀ event ∈ told effects, event.masks = false)
      (rest : GuardScript)
  /-- Does something with interrupts off. -/
  | within (body rest : GuardScript)

/-- What can be seen at one time. -/
structure Sight where
  interrupts : Bool
  /-- The number of live guards. -/
  live : Nat
  deriving DecidableEq, Repr

namespace GuardStack

/-- Looks at the flag and at the guards. Those of the closures around are not in the stack. -/
def look (around : Nat) : Operation GuardStack Sight := do
  let stack ← get
  return ⟨stack.cpu.interrupts, stack.guards.length + around⟩

/-- The stack after the flag and the guards have changed. -/
def moved (stack : GuardStack) (enabled : Bool) (guards : List Guard) : GuardStack :=
  { cpu := { stack.cpu with interrupts := enabled }, guards }

/-- The number of guards that found interrupts on, with those of the closures around. -/
def waiting (stack : GuardStack) (around : List Guard) : Nat :=
  (stack.guards ++ around).countP Guard.wereEnabled

section Steps

variable {stack : GuardStack} {guard : Guard} {index : Nat}

theorem runs_push (stack : GuardStack) :
    push.Runs stack () (stack.moved false (stack.guards ++ [⟨stack.cpu.interrupts⟩]))
      (if stack.cpu.interrupts then [.disableInterrupts] else []) := by
  rcases stack with ⟨⟨_ | _, registers⟩, guards⟩
  · exact ⟨[], rfl, rfl⟩
  · exact ⟨[.cpu .disableInterrupts], rfl, rfl⟩

theorem runs_drop (found : stack.guards[index]? = some guard) :
    (drop index).Runs stack true
      (stack.moved (stack.cpu.interrupts || guard.wereEnabled) (stack.guards.eraseIdx index))
      (if guard.wereEnabled then [.enableInterrupts] else []) := by
  refine runs_bind_silent runs_get ?_
  simp only [found]
  refine runs_bind_silent runs_modify ?_
  rcases guard with ⟨_ | _⟩
  · rw [Bool.or_false]
    exact ⟨[], rfl, rfl⟩
  · rw [Bool.or_true]
    exact ⟨[.cpu .enableInterrupts], rfl, rfl⟩

theorem runs_drop_of_none (missing : stack.guards[index]? = none) :
    (drop index).Runs stack false stack [] := by
  refine runs_bind_silent runs_get ?_
  simp only [missing]
  exact runs_pure

/-- A closure is run with interrupts off, and afterwards they are on if they were on before. -/
theorem runs_masked {Value : Type} {body : Operation GuardStack Value} {value : Value}
    {between : GuardStack} {events : List Event}
    (run : body.Runs (stack.moved false stack.guards) value between events) :
    (masked body).Runs stack value
      (between.moved (between.cpu.interrupts || stack.cpu.interrupts) between.guards)
      (bracket stack.cpu.interrupts events) := by
  rcases stack with ⟨⟨_ | _, registers⟩, guards⟩
  · rw [Bool.or_false]
    exact Operation.runs_masked run
  · rw [Bool.or_true]
    exact Operation.runs_masked run

theorem runs_look (stack : GuardStack) (around : Nat) :
    (look around).Runs stack ⟨stack.cpu.interrupts, stack.guards.length + around⟩ stack [] :=
  ⟨[], rfl, rfl⟩

/-- A guard that is made last is counted last. -/
theorem waiting_concat (enabled : Bool) (guard : Guard) (around : List Guard) :
    (stack.moved enabled (stack.guards ++ [guard])).waiting around =
      stack.waiting around + guard.wereEnabled.toNat := by
  simp only [waiting, moved, List.countP_append, List.countP_singleton]
  cases guard.wereEnabled <;> simp; omega

theorem waiting_cons (guard : Guard) (around : List Guard) :
    stack.waiting (guard :: around) = stack.waiting around + guard.wereEnabled.toNat := by
  simp only [waiting, List.countP_append, List.countP_cons]
  cases guard.wereEnabled <;> simp; omega

/-- Wherever a guard stands, it is counted once. -/
theorem waiting_eraseIdx (enabled : Bool) (around : List Guard)
    (found : stack.guards[index]? = some guard) :
    stack.waiting around =
      (stack.moved enabled (stack.guards.eraseIdx index)).waiting around +
        guard.wereEnabled.toNat := by
  rcases List.getElem?_eq_some_iff.mp found with ⟨below, rfl⟩
  have same := ((List.getElem_cons_eraseIdx_perm below).countP_eq Guard.wereEnabled).symm
  rw [List.countP_cons] at same
  simp only [waiting, moved, List.countP_append, same]
  cases stack.guards[index].wereEnabled <;> simp; omega

end Steps

end GuardStack

namespace GuardScript

/-- Looks before something is done, then does it, and then goes on. -/
def watch (around : Nat) (step rest : Operation GuardStack (List Sight)) :
    Operation GuardStack (List Sight) := do
  let sight ← GuardStack.look around
  let within ← step
  return sight :: (within ++ (← rest))

/-- Runs the script inside so many closures, and tells what is seen before each step, within
closures too, and in the end. -/
def act : GuardScript → (around : Nat) → Operation GuardStack (List Sight)
  | .done, around => return [← GuardStack.look around]
  | .make rest, around => watch around (do GuardStack.push; return []) (rest.act around)
  | .drop index rest, around =>
      watch around (do let _ ← GuardStack.drop index; return []) (rest.act around)
  | .other effects _ rest, around => watch around (do perform effects; return []) (rest.act around)
  | .within body rest, around => watch around (masked (body.act (around + 1))) (rest.act around)

/-- What a run of guards comes to inside the closures around, if interrupts were on at first or off:
nothing is lost, and whenever no guard is live the flag is what it was at first. -/
structure Orderly (enabled : Bool) (around : List Guard) (before : GuardStack)
    (sights : List Sight) (after : GuardStack) (events : List Event) : Prop where
  conserved : Conserved enabled after.cpu.interrupts (after.waiting around)
  passage : Passage enabled before.cpu.interrupts events after.cpu.interrupts
  free : ∀ sight ∈ sights, sight.live = 0 → sight.interrupts = enabled

/-- From where nothing is lost, the operation ends, and still nothing is lost. -/
def KeepsOrder (enabled : Bool) (around : List Guard) (action : Operation GuardStack (List Sight)) :
    Prop :=
  ∀ before, Conserved enabled before.cpu.interrupts (before.waiting around) →
    ∃ sights after events, action.Runs before sights after events ∧
      Orderly enabled around before sights after events

section Runs

variable {enabled : Bool} {around : List Guard} {before between after : GuardStack}
  {early late : List Sight} {events more : List Event}
  {step rest : Operation GuardStack (List Sight)}

theorem Orderly.trans (first : Orderly enabled around before early between events)
    (second : Orderly enabled around between late after more) :
    Orderly enabled around before (early ++ late) after (events ++ more) where
  conserved := second.conserved
  passage := first.passage.trans second.passage
  free := by
    intro sight mem
    rcases List.mem_append.mp mem with mem | mem
    · exact first.free sight mem
    · exact second.free sight mem

/-- Where no guard is live, nothing is waiting. -/
theorem orderly_look
    (conserved : Conserved enabled before.cpu.interrupts (before.waiting around)) :
    Orderly enabled around before
      [⟨before.cpu.interrupts, before.guards.length + around.length⟩] before [] where
  conserved := conserved
  passage := Passage.of_plain (by simp)
  free := by
    intro sight mem none
    rw [List.mem_singleton.mp mem] at none ⊢
    rcases Nat.add_eq_zero_iff.mp none with ⟨noGuards, noClosures⟩
    rw [GuardStack.waiting, List.length_eq_zero_iff.mp noGuards,
      List.length_eq_zero_iff.mp noClosures] at conserved
    exact conserved.eq_enabled

theorem keepsOrder_done : KeepsOrder enabled around (done.act around.length) := by
  intro before conserved
  exact ⟨_, before, [], runs_bind (GuardStack.runs_look before around.length) runs_pure,
    orderly_look conserved⟩

theorem runs_watch (around : Nat) (done : step.Runs before early between events)
    (continued : rest.Runs between late after more) :
    (watch around step rest).Runs before
      (⟨before.cpu.interrupts, before.guards.length + around⟩ :: (early ++ late)) after
      (events ++ more) := by
  refine runs_bind_silent (GuardStack.runs_look before around) ?_
  refine runs_bind done ?_
  rw [← List.append_nil more]
  exact runs_bind continued runs_pure

theorem keepsOrder_watch (first : KeepsOrder enabled around step)
    (second : KeepsOrder enabled around rest) :
    KeepsOrder enabled around (watch around.length step rest) := by
  intro before conserved
  rcases first before conserved with ⟨early, between, events, done, orderly⟩
  rcases second between orderly.conserved with ⟨late, after, more, continued, orderlyAfter⟩
  exact ⟨_, after, _, runs_watch _ done continued,
    (orderly_look conserved).trans (orderly.trans orderlyAfter)⟩

/-- A step that shows nothing of what is within it. -/
theorem keepsOrder_of_runs {Value : Type} {action : Operation GuardStack Value}
    (runs : ∀ before, Conserved enabled before.cpu.interrupts (before.waiting around) →
      ∃ value after events, action.Runs before value after events ∧
        Conserved enabled after.cpu.interrupts (after.waiting around) ∧
        Passage enabled before.cpu.interrupts events after.cpu.interrupts) :
    KeepsOrder enabled around (do let _ ← action; return []) := by
  intro before conserved
  rcases runs before conserved with ⟨value, after, events, run, conservedAfter, passage⟩
  rw [← List.append_nil events] at passage
  exact ⟨[], after, _, runs_bind run runs_pure, conservedAfter, passage, by simp⟩

theorem keepsOrder_push : KeepsOrder enabled around (do GuardStack.push; return []) := by
  refine keepsOrder_of_runs fun before conserved => ?_
  refine ⟨(), _, _, GuardStack.runs_push before, ?_, conserved.passage_make⟩
  rw [GuardStack.waiting_concat]
  exact conserved.make

theorem keepsOrder_drop (index : Nat) :
    KeepsOrder enabled around (do let _ ← GuardStack.drop index; return []) := by
  refine keepsOrder_of_runs fun before conserved => ?_
  cases found : before.guards[index]? with
  | none =>
      exact ⟨false, before, [], GuardStack.runs_drop_of_none found, conserved,
        Passage.of_plain (by simp)⟩
  | some guard =>
      rw [GuardStack.waiting_eraseIdx _ around found] at conserved
      exact ⟨true, _, _, GuardStack.runs_drop found, conserved.drop, conserved.passage_drop⟩

theorem keepsOrder_perform {effects : List Effect}
    (plain : ∀ event ∈ told effects, event.masks = false) :
    KeepsOrder enabled around (do perform effects; return []) :=
  keepsOrder_of_runs fun before conserved =>
    ⟨(), before, told effects, ⟨effects, rfl, rfl⟩, conserved, Passage.of_plain plain⟩

/-- The guard of a closure is made before and dropped after what is done in the closure. -/
theorem keepsOrder_masked {body : Operation GuardStack (List Sight)}
    (inside : ∀ guard, KeepsOrder enabled (guard :: around) body) :
    KeepsOrder enabled around (masked body) := by
  intro before conserved
  have entered : Conserved enabled false
      ((before.moved false before.guards).waiting (⟨before.cpu.interrupts⟩ :: around)) := by
    rw [GuardStack.waiting_cons]
    exact conserved.make
  rcases inside ⟨before.cpu.interrupts⟩ (before.moved false before.guards) entered with
    ⟨sights, between, events, run, orderly⟩
  have left := orderly.conserved
  rw [GuardStack.waiting_cons] at left
  refine ⟨sights, _, _, GuardStack.runs_masked run, left.drop, ?_, orderly.free⟩
  rw [bracket_eq]
  exact conserved.passage_make.trans (orderly.passage.trans left.passage_drop)

theorem keepsOrder_act (script : GuardScript) :
    KeepsOrder enabled around (script.act around.length) := by
  induction script generalizing around with
  | done => exact keepsOrder_done
  | make rest ih => exact keepsOrder_watch keepsOrder_push ih
  | drop index rest ih => exact keepsOrder_watch (keepsOrder_drop index) ih
  | other effects plain rest ih => exact keepsOrder_watch (keepsOrder_perform plain) ih
  | within body rest ihBody ih =>
      exact keepsOrder_watch (keepsOrder_masked fun _ => ihBody) ih

end Runs

/-- Every drop in the script is of the last guard that was made and is live. There are `older`
guards from outside the innermost closure, and `own` ones inside it; `left` of these stay. -/
inductive Nested : (older own : Nat) → GuardScript → (left : Nat) → Prop where
  | done {older own : Nat} : Nested older own .done own
  | make {older own left : Nat} {rest : GuardScript} :
      Nested older (own + 1) rest left → Nested older own (.make rest) left
  | drop {older own left : Nat} {rest : GuardScript} :
      Nested older own rest left → Nested older (own + 1) (.drop (older + own) rest) left
  | other {older own left : Nat} {rest : GuardScript} {effects : List Effect}
      {plain : ∀ event ∈ told effects, event.masks = false} :
      Nested older own rest left → Nested older own (.other effects plain rest) left
  /-- Before a closure ends, all guards that were made in it are dropped. -/
  | within {older own left : Nat} {body rest : GuardScript} :
      Nested (older + own) 0 body 0 → Nested older own rest left →
        Nested older own (.within body rest) left

/-- Interrupts are off whenever a guard is live. -/
def Shut (sights : List Sight) : Prop :=
  ∀ sight ∈ sights, 0 < sight.live → sight.interrupts = false

/-- Guards made one after another: the first finds the flag as it is, and the others find it off. -/
def layer (entered : Bool) : Nat → List Guard
  | 0 => []
  | own + 1 => layer entered own ++ [⟨entered && own == 0⟩]

/-- The state with the older guards and so many own ones on top of them, if the flag is as given
without these. -/
def layered (cpu : Cpu) (older : List Guard) (entered : Bool) (own : Nat) : GuardStack where
  cpu := { cpu with interrupts := entered && own == 0 }
  guards := older ++ layer entered own

section Layers

variable {cpu : Cpu} {older : List Guard} {entered : Bool} {around own next left : Nat}
  {step rest : Operation GuardStack (List Sight)}

theorem length_layer (entered : Bool) (own : Nat) : (layer entered own).length = own := by
  induction own with
  | zero => rfl
  | succ own ih => rw [layer, List.length_append, ih, List.length_singleton]

theorem length_guards_layered (cpu : Cpu) (older : List Guard) (entered : Bool) (own : Nat) :
    (layered cpu older entered own).guards.length = older.length + own := by
  rw [layered, List.length_append, length_layer]

theorem layered_succ (cpu : Cpu) (older : List Guard) (entered : Bool) (own : Nat) :
    layered cpu older entered (own + 1) =
      (layered cpu older entered own).moved false
        ((layered cpu older entered own).guards ++ [⟨entered && own == 0⟩]) := by
  simp [layered, layer, GuardStack.moved]

theorem runs_push_layered :
    GuardStack.push.Runs (layered cpu older entered own) () (layered cpu older entered (own + 1))
      (if entered && own == 0 then [.disableInterrupts] else []) := by
  rw [layered_succ]
  exact GuardStack.runs_push (layered cpu older entered own)

theorem runs_drop_layered :
    (GuardStack.drop (older.length + own)).Runs (layered cpu older entered (own + 1)) true
      (layered cpu older entered own)
      (if entered && own == 0 then [.enableInterrupts] else []) := by
  have size := length_guards_layered cpu older entered own
  have found : (layered cpu older entered (own + 1)).guards[older.length + own]? =
      some ⟨entered && own == 0⟩ := by
    rw [layered_succ, ← size]
    exact List.getElem?_concat_length
  have erased : (layered cpu older entered (own + 1)).guards.eraseIdx (older.length + own) =
      older ++ layer entered own := by
    rw [layered_succ, ← size]
    simp [GuardStack.moved, layered, List.eraseIdx_append_of_length_le]
  have run := GuardStack.runs_drop found
  rw [erased] at run
  simpa [GuardStack.moved, layered] using run

/-- In a closure the guards so far are all older ones, and without own ones interrupts are off. -/
theorem runs_masked_layered {body : Operation GuardStack (List Sight)} {inside : List Sight}
    {events : List Event}
    (run : body.Runs (layered cpu (layered cpu older entered own).guards false 0) inside
      (layered cpu (layered cpu older entered own).guards false 0) events) :
    (masked body).Runs (layered cpu older entered own) inside (layered cpu older entered own)
      (bracket (layered cpu older entered own).cpu.interrupts events) := by
  have start : layered cpu (layered cpu older entered own).guards false 0 =
      (layered cpu older entered own).moved false (layered cpu older entered own).guards := by
    simp [layered, layer, GuardStack.moved]
  rw [start] at run
  have closed := GuardStack.runs_masked run
  simpa only [GuardStack.moved, Bool.false_or] using closed

/-- If the flag is on without the own guards, there are no others. -/
theorem shut_look (alone : entered = true → older.length + around = 0) :
    Shut [⟨(layered cpu older entered own).cpu.interrupts,
      (layered cpu older entered own).guards.length + around⟩] := by
  intro sight mem live
  cases List.mem_singleton.mp mem
  rw [length_guards_layered] at live
  cases entered with
  | false => rfl
  | true =>
      have none := alone rfl
      have some : own ≠ 0 := by
        rintro rfl
        exact absurd none (Nat.ne_of_gt live)
      exact decide_eq_false some

theorem Shut.append {early late : List Sight} (first : Shut early) (second : Shut late) :
    Shut (early ++ late) := by
  intro sight mem live
  rcases List.mem_append.mp mem with mem | mem
  · exact first sight mem live
  · exact second sight mem live

theorem shut_nil : Shut [] :=
  fun _ none => absurd none List.not_mem_nil

theorem exists_runs_watch (alone : entered = true → older.length + around = 0)
    {inside : List Sight} {events : List Event}
    (done : step.Runs (layered cpu older entered own) inside (layered cpu older entered next)
      events)
    (shut : Shut inside)
    (continued : ∃ later more, rest.Runs (layered cpu older entered next) later
      (layered cpu older entered left) more ∧ Shut later) :
    ∃ sights events, (watch around step rest).Runs (layered cpu older entered own) sights
      (layered cpu older entered left) events ∧ Shut sights := by
  rcases continued with ⟨later, more, continued, shutLater⟩
  exact ⟨_, _, runs_watch around done continued, (shut_look alone).append (shut.append shutLater)⟩

/-- A nested script leaves the older guards alone and ends with the own ones that it is to leave. -/
theorem Nested.runs {script : GuardScript} {count : Nat} (nested : script.Nested count own left)
    (counted : older.length = count) (alone : entered = true → older.length + around = 0) :
    ∃ sights events, (script.act around).Runs (layered cpu older entered own) sights
      (layered cpu older entered left) events ∧ Shut sights := by
  induction nested generalizing older entered around with
  | done =>
      exact ⟨_, [], runs_bind (GuardStack.runs_look _ around) runs_pure, shut_look alone⟩
  | make _ ih =>
      exact exists_runs_watch alone (runs_bind runs_push_layered runs_pure) shut_nil
        (ih counted alone)
  | drop _ ih =>
      subst counted
      exact exists_runs_watch alone (runs_bind runs_drop_layered runs_pure) shut_nil (ih rfl alone)
  | @other _ _ _ _ effects _ _ ih =>
      exact exists_runs_watch alone (runs_bind ⟨effects, rfl, rfl⟩ runs_pure) shut_nil
        (ih counted alone)
  | @within _ own _ body _ _ _ ihBody ih =>
      subst counted
      have closure : ∃ inside events, (body.act (around + 1)).Runs
          (layered cpu (layered cpu older entered own).guards false 0) inside
          (layered cpu (layered cpu older entered own).guards false 0) events ∧ Shut inside :=
        ihBody (length_guards_layered cpu older entered own) fun never => Bool.noConfusion never
      rcases closure with ⟨inside, events, run, shut⟩
      exact exists_runs_watch alone (runs_masked_layered run) shut (ih rfl alone)

end Layers

end GuardScript

/-- A console behind a lock that hands what is printed to a writer of any kind, and the processor
that prints to it. -/
structure Printer (Writer : Type) where
  cpu : Cpu
  writer : Writer
  locked : Bool := false
  /-- The circumstances of each write, in order. -/
  writes : List Condition := []

namespace Printer

variable {Writer : Type} (accept : Writer → String → Bool × Writer)

instance : Maskable (Printer Writer) where
  interrupts printer := printer.cpu.interrupts
  withInterrupts enabled printer :=
    { printer with cpu := { printer.cpu with interrupts := enabled } }

instance : Lockable (Printer Writer) where
  locked := Printer.locked
  withLock locked printer := { printer with locked }

/-- Writes a piece, and says whether the writer accepted it. -/
def write (piece : String) : Operation (Printer Writer) Bool :=
  Operation.modifyGet fun printer =>
    let (accepted, writer) := accept printer.writer piece
    (accepted,
      { printer with
        writer := writer
        writes := printer.writes ++ [⟨printer.cpu.interrupts, printer.locked⟩] })

/-- Writes the pieces up to the first that is refused, and says whether there is none. -/
def writeAll : List String → Operation (Printer Writer) Bool
  | [] => return true
  | piece :: rest => do
      if ← write accept piece then
        writeAll rest
      else
        return false

/-- Prints the pieces under the lock with interrupts off, and says whether all were accepted. -/
def printMasked (pieces : List String) : Operation (Printer Writer) Bool :=
  masked (underLock (writeAll accept pieces))

/-- What the writer makes of the pieces up to the first that it refuses. -/
def acceptAll (writer : Writer) : List String → Bool × Writer
  | [] => (true, writer)
  | piece :: rest =>
      if (accept writer piece).1 then acceptAll (accept writer piece).2 rest
      else accept writer piece

theorem acceptAll_singleton (writer : Writer) (piece : String) :
    acceptAll accept writer [piece] = accept writer piece := by
  rw [acceptAll]
  split
  · rename_i accepted
    exact Prod.ext accepted.symm rfl
  · rfl

/-- The printer after so many writes that took place in its circumstances. -/
def after (printer : Printer Writer) (writer : Writer) (count : Nat) : Printer Writer :=
  { printer with
    writer := writer
    writes := printer.writes ++ List.replicate count ⟨printer.cpu.interrupts, printer.locked⟩ }

theorem after_zero (printer : Printer Writer) : printer.after printer.writer 0 = printer := by
  simp [after]

theorem after_after (printer : Printer Writer) (writer other : Writer) (count more : Nat) :
    (printer.after writer count).after other more = printer.after other (count + more) := by
  simp [after, List.replicate_append_replicate]

theorem runs_write (piece : String) (printer : Printer Writer) :
    (write accept piece).Runs printer (accept printer.writer piece).1
      (printer.after (accept printer.writer piece).2 1) [] :=
  ⟨[], rfl, rfl⟩

/-- All writes take place in the same circumstances, also if one is refused. -/
theorem runs_writeAll (pieces : List String) (printer : Printer Writer) : ∃ count,
    (writeAll accept pieces).Runs printer (acceptAll accept printer.writer pieces).1
      (printer.after (acceptAll accept printer.writer pieces).2 count) [] := by
  induction pieces generalizing printer with
  | nil =>
      refine ⟨0, ?_⟩
      rw [acceptAll, after_zero]
      exact runs_pure
  | cons piece rest ih =>
      have first := runs_write accept piece printer
      cases accepted : (accept printer.writer piece).1 with
      | false =>
          rw [accepted] at first
          refine ⟨1, runs_bind_silent first ?_⟩
          rw [acceptAll, accepted, if_neg Bool.false_ne_true, if_neg Bool.false_ne_true, accepted]
          exact runs_pure
      | true =>
          rw [accepted] at first
          rcases ih (printer.after (accept printer.writer piece).2 1) with ⟨count, later⟩
          rw [after_after] at later
          refine ⟨1 + count, runs_bind_silent first ?_⟩
          rw [acceptAll, accepted, if_pos rfl, if_pos rfl]
          exact later

/-- What masked printing comes to: all writes took place under the lock with interrupts off, and
afterwards the lock is free and the processor as it was. -/
structure Printed (pieces : List String) (before : Printer Writer) (complete : Bool)
    (after : Printer Writer) (events : List Event) : Prop where
  answered : (complete, after.writer) = acceptAll accept before.writer pieces
  masked : ∃ count, after.writes = before.writes ++ List.replicate count ⟨false, true⟩
  released : after.locked = false
  restored : after.cpu = before.cpu
  bracketed : events = bracket before.cpu.interrupts []

/-- Whoever prints needs the lock to be free, and leaves it free. -/
structure Prints (pieces : List String) (before : Printer Writer) : Prop where
  prints : before.locked = false → ∃ complete after events,
    (printMasked accept pieces).Runs before complete after events ∧
      Printed accept pieces before complete after events
  waits : before.locked = true → printMasked accept pieces before = .error .heldLock

theorem printed (pieces : List String) (before : Printer Writer) :
    Prints accept pieces before where
  prints free := by
    rcases runs_writeAll accept pieces
        { before with cpu := { before.cpu with interrupts := false }, locked := true } with
      ⟨count, wrote⟩
    let after : Printer Writer :=
      { before with
        writer := (acceptAll accept before.writer pieces).2
        locked := false
        writes := before.writes ++ List.replicate count ⟨false, true⟩ }
    have freeMasked : Lockable.locked (Maskable.withInterrupts false before) = false := free
    exact ⟨_, after, _, runs_masked_of_off before after (fun _ _ _ => rfl) rfl
      (runs_underLock freeMasked wrote), rfl, ⟨count, rfl⟩, rfl, rfl, rfl⟩
  waits held := by
    rw [printMasked]
    exact masked_underLock_of_held (fun _ _ => rfl) held

end Printer

namespace Console

/-- With interrupts off, writing changes nothing but the sink. -/
theorem runs_write (text : String) {console : Console} (disabled : console.cpu.interrupts = false) :
    (write text).Runs console (console.sink.write text).1
      { console with sink := (console.sink.write text).2 } [] := by
  have unmasked : (console.writtenUnmasked || (!text.isEmpty && console.cpu.interrupts)) =
      console.writtenUnmasked := by
    rw [disabled, Bool.and_false, Bool.or_false]
  have wrote : (write text).Runs console (console.sink.write text).1
      { console with
        sink := (console.sink.write text).2
        writtenUnmasked :=
          console.writtenUnmasked || (!text.isEmpty && console.cpu.interrupts) } [] :=
    ⟨[], rfl, rfl⟩
  rwa [unmasked] at wrote

/-- The console as a printer that hands its texts to the sink. -/
def printer (console : Console) : Printer Sink where
  cpu := console.cpu
  writer := console.sink
  locked := console.locked

/-- What masked printing comes to: nothing was written with interrupts on, and afterwards the lock
is free and the processor as it was. A printer would have come to the same. -/
structure Printed (text : String) (before : Console) (complete : Bool) (after : Console)
    (events : List Event) : Prop where
  answered : (complete, after.sink) = before.sink.write text
  masked : after.writtenUnmasked = before.writtenUnmasked
  released : after.locked = false
  restored : after.cpu = before.cpu
  bracketed : events = bracket before.cpu.interrupts []
  asPrinter : ∃ writes, (Printer.printMasked Sink.write [text]).Runs before.printer complete
    { after.printer with writes } events

/-- Printing one text, a printer comes to what the writer makes of it. -/
theorem runs_asPrinter (text : String) {before : Console} (free : before.locked = false) :
    ∃ writes, (Printer.printMasked Sink.write [text]).Runs before.printer
      (before.sink.write text).1
      { before.printer with writer := (before.sink.write text).2, locked := false, writes }
      (bracket before.cpu.interrupts []) := by
  rcases (Printer.printed Sink.write [text] before.printer).prints free with
    ⟨complete, ⟨cpu, writer, locked, writes⟩, events, run, printed⟩
  have answered := printed.answered.trans (Printer.acceptAll_singleton Sink.write _ text)
  rcases printed with ⟨-, -, rfl, rfl, rfl⟩
  refine ⟨writes, ?_⟩
  change (complete, writer) = before.sink.write text at answered
  rw [← answered]
  exact run

/-- Whoever prints needs the lock of the console to be free, and leaves it free. -/
structure Prints (text : String) (before : Console) : Prop where
  prints : before.locked = false → ∃ complete after events,
    (printMasked text).Runs before complete after events ∧
      Printed text before complete after events
  waits : before.locked = true → printMasked text before = .error .heldLock

theorem printed (text : String) (before : Console) : Prints text before where
  prints free := by
    let after : Console := { before with sink := (before.sink.write text).2, locked := false }
    have freeMasked : Lockable.locked (Maskable.withInterrupts false before) = false := free
    exact ⟨_, after, _, runs_masked_of_off before after (fun _ _ _ => rfl) rfl
      (runs_underLock freeMasked (runs_write text rfl)), rfl, rfl, rfl, rfl, rfl,
      runs_asPrinter text free⟩
  waits held := by
    rw [printMasked]
    exact masked_underLock_of_held (fun _ _ => rfl) held

end Console

/-- What a script of guards comes to, if there are no guards at first: the flag is what it was
whenever no guard is live, and in the end if all were dropped; interrupts are turned off and on by
turns, and not at all if they were off; and if the script is nested, interrupts are off whenever a
guard is live. -/
structure GuardScript.Composed (cpu : Cpu) (script : GuardScript) (sights : List Sight)
    (after : GuardStack) (events : List Event) : Prop where
  restored : after.guards = [] → after.cpu.interrupts = cpu.interrupts
  free : ∀ sight ∈ sights, sight.live = 0 → sight.interrupts = cpu.interrupts
  byTurns : ByTurns cpu.interrupts (maskings events) after.cpu.interrupts
  silent : cpu.interrupts = false → maskings events = []
  shut : ∀ left, script.Nested 0 0 left → GuardScript.Shut sights

theorem GuardScript.composed (cpu : Cpu) (script : GuardScript) : ∃ sights after events,
    (script.act 0).Runs { cpu } sights after events ∧
      script.Composed cpu sights after events := by
  have alone : Conserved cpu.interrupts cpu.interrupts (GuardStack.waiting { cpu } []) := rfl
  have keeps : KeepsOrder cpu.interrupts [] (script.act 0) := script.keepsOrder_act
  rcases keeps { cpu } alone with ⟨sights, after, events, run, orderly⟩
  refine ⟨sights, after, events, run, ?_, orderly.free, orderly.passage.byTurns,
    orderly.passage.silent, fun left nested => ?_⟩
  · intro none
    have conserved := orderly.conserved
    rw [GuardStack.waiting, none] at conserved
    exact conserved.eq_enabled
  · have start : layered cpu [] cpu.interrupts 0 = { cpu } := by
      simp [layered, layer]
    have stacked : ∃ seen more, (script.act 0).Runs (layered cpu [] cpu.interrupts 0) seen
        (layered cpu [] cpu.interrupts left) more ∧ Shut seen :=
      nested.runs rfl fun _ => rfl
    rcases stacked with ⟨seen, more, again, shut⟩
    rw [start] at again
    rw [(run.unique again).1]
    exact shut

/-- Guards compose: whatever is done with them one after another and inside one another, in whatever
order they are dropped, the flag is restored. So it is for whoever prints, if nobody holds the lock
already; and whatever the writer refuses, nothing is written but under the lock and with interrupts
off, and the lock is free again afterwards. -/
theorem guards_compose :
    (∀ (cpu : Cpu) (script : GuardScript), ∃ sights after events,
      (script.act 0).Runs { cpu } sights after events ∧
        script.Composed cpu sights after events) ∧
    (∀ (Writer : Type) (accept : Writer → String → Bool × Writer) (pieces : List String)
      (before : Printer Writer), Printer.Prints accept pieces before) ∧
    ∀ (text : String) (before : Console), Console.Prints text before :=
  ⟨GuardScript.composed, fun _ => Printer.printed, Console.printed⟩

/-- A guard is made and dropped in a closure that is run under another guard. -/
theorem guards_compose_in_closure :
    let script : GuardScript := .make (.within (.make (.drop 1 .done)) (.drop 0 .done))
    let sights : List Sight :=
      [⟨true, 0⟩, ⟨false, 1⟩, ⟨false, 2⟩, ⟨false, 3⟩, ⟨false, 2⟩, ⟨false, 1⟩, ⟨true, 0⟩]
    script.Nested 0 0 0 ∧ ∃ after events, (script.act 0).Runs { cpu := {} } sights after events ∧
      script.Composed {} sights after events := by
  intro script sights
  have nested : script.Nested 0 0 0 := .make (.within (.make (.drop .done)) (.drop .done))
  rcases guards_compose.1 {} script with ⟨seen, after, events, run, composed⟩
  have again : (script.act 0).Runs { cpu := {} } sights { cpu := {} }
      [.disableInterrupts, .enableInterrupts] :=
    ⟨[.cpu .disableInterrupts, .cpu .enableInterrupts], rfl, rfl⟩
  cases (run.unique again).1
  exact ⟨nested, after, events, run, composed⟩

/-- If the first of two guards is dropped first, interrupts are on under the other. -/
example :
    ((GuardScript.make (.make (.drop 0 (.drop 0 .done)))).act 0 { cpu := {} }).map Outcome.value =
      .ok [⟨true, 0⟩, ⟨false, 1⟩, ⟨false, 2⟩, ⟨true, 1⟩, ⟨true, 0⟩] := by
  rfl

end KernelCore
