import KernelCore.Lock
import KernelCore.Proofs.Loads

/-!
# When interrupts are off

A masked operation turns interrupts off if they are on, and in the end turns them on again. What it
tells the processor in between is told with interrupts off, as long as the operation itself leaves
the flag alone: `Operation.Calm` says that it does, and is proved step by step along the operation.
`Shield` is what can then be said of a run, whether the operation was refused or not.
`Operation.Runs` says of one run what it leads to together with all that the processor is told.

What is done under a lock is done with interrupts off. `Operation.underLock_apply` says what it
comes to, whether the lock was free or held.
-/

namespace KernelCore

/-- Whether the event turns interrupts off or on. -/
def Event.masks : Event → Bool
  | .disableInterrupts | .enableInterrupts => true
  | _ => false

/-- The event of an effect, if it is one for the processor. -/
def Effect.event? : Effect → Option Event
  | .cpu event => some event
  | _ => none

/-- What the processor is told, in order. -/
def told (effects : List Effect) : List Event :=
  effects.filterMap Effect.event?

/-- The events with interrupts turned off before them and on after them, if they were on. -/
def bracket (enabled : Bool) (events : List Event) : List Event :=
  if enabled then .disableInterrupts :: (events ++ [.enableInterrupts]) else events

section Traces

variable {event : Event} {effects : List Effect} {events : List Event}

theorem mem_told : event ∈ told effects ↔ .cpu event ∈ effects := by
  rw [told, List.mem_filterMap]
  constructor
  · rintro ⟨effect, mem, same⟩
    cases effect with
    | cpu found =>
        cases same
        exact mem
    | log | print => cases same
  · intro mem
    exact ⟨.cpu event, mem, rfl⟩

theorem told_append (effects more : List Effect) :
    told (effects ++ more) = told effects ++ told more :=
  List.filterMap_append

theorem told_cpu (events : List Event) : told (events.map Effect.cpu) = events := by
  induction events with
  | nil => rfl
  | cons event rest ih => exact congrArg (List.cons event) ih

theorem told_around (first last : Event) (effects : List Effect) :
    told (.cpu first :: (effects ++ [.cpu last])) = first :: (told effects ++ [last]) := by
  rw [← List.singleton_append, told_append, told_append]
  rfl

theorem told_eq_nil (silent : ∀ event, .cpu event ∉ effects) : told effects = [] :=
  List.eq_nil_iff_forall_not_mem.mpr fun event mem => silent event (mem_told.mp mem)

end Traces

namespace Condition

section Replays

variable {condition : Condition} {events more : List Event} {entry : Event × Condition}

/-- What is the case after the events. -/
def afterAll (condition : Condition) (events : List Event) : Condition :=
  events.foldl after condition

theorem replay_append (condition : Condition) (events more : List Event) :
    condition.replay (events ++ more) =
      condition.replay events ++ (condition.afterAll events).replay more := by
  induction events generalizing condition with
  | nil => rfl
  | cons event rest ih => exact congrArg (List.cons _) (ih (condition.after event))

theorem interrupts_after (condition : Condition) {event : Event} (plain : event.masks = false) :
    (condition.after event).interrupts = condition.interrupts := by
  cases event with
  | disableInterrupts | enableInterrupts => cases plain
  | _ => rfl

/-- Where nothing turns interrupts on or off, they are at each event what they were before. -/
theorem interrupts_replay (plain : ∀ event ∈ events, event.masks = false)
    (mem : entry ∈ condition.replay events) : entry.2.interrupts = condition.interrupts := by
  induction events generalizing condition with
  | nil => cases mem
  | cons event rest ih =>
      rcases List.mem_cons.mp mem with rfl | later
      · rfl
      · rw [ih (fun event mem => plain event (List.mem_cons_of_mem _ mem)) later]
        exact interrupts_after condition (plain event List.mem_cons_self)

/-- Within brackets all happens with interrupts off. -/
theorem interrupts_bracket {enabled : Bool} (plain : ∀ event ∈ events, event.masks = false)
    (was : condition.interrupts = enabled) (mem : entry ∈ condition.replay (bracket enabled events))
    (other : entry.1.masks = false) : entry.2.interrupts = false := by
  cases enabled with
  | false => exact (interrupts_replay plain mem).trans was
  | true =>
      rcases List.mem_cons.mp mem with rfl | later
      · cases other
      · rw [replay_append, List.mem_append] at later
        rcases later with inside | last
        · exact interrupts_replay plain inside
        · rw [List.mem_singleton.mp last] at other
          cases other

end Replays

end Condition

/-- The flag is what it was, and all that is allowed in between is told with interrupts off. -/
structure Shield (allowed : Event → Prop) (before after : Bool) (events : List Event) : Prop where
  restored : after = before
  bracketed : ∃ inner, (∀ event ∈ inner, allowed event) ∧ events = bracket before inner
  undisturbed : ∀ locked, ∀ entry ∈ Condition.replay ⟨before, locked⟩ events,
    entry.1.masks = false → entry.2.interrupts = false

namespace Operation

variable {State Whole Value Result : Type}

/-- From inside, the operation stays inside, and tells the processor only what is allowed. -/
def Calm (action : Operation State Value) (inside : State → Prop) (allowed : Event → Prop) :
    Prop :=
  ∀ before value after effects, action before = .ok ⟨value, after, effects⟩ → inside before →
    inside after ∧ ∀ event, .cpu event ∈ effects → allowed event

/-- Whatever the operation ends with, it was shielded. -/
def Shielded [Maskable State] (action : Operation State Value) (allowed : Event → Prop) : Prop :=
  ∀ before value after effects, action before = .ok ⟨value, after, effects⟩ →
    Shield allowed (Maskable.interrupts before) (Maskable.interrupts after) (told effects)

section Rules

variable {action first : Operation State Value} {next : Value → Operation State Result}
  {value : Value} {inside : State → Prop} {allowed : Event → Prop}

theorem calm_pure : (pure value : Operation State Value).Calm inside allowed := by
  intro before value after effects run within
  cases run
  exact ⟨within, fun _ mem => absurd mem List.not_mem_nil⟩

theorem calm_bind (begun : first.Calm inside allowed)
    (ended : ∀ value, (next value).Calm inside allowed) :
    (first >>= next).Calm inside allowed := by
  intro before result after effects run within
  rcases bind_eq_ok.mp run with ⟨value, between, early, late, start, finish, rfl⟩
  rcases begun before value between early start within with ⟨stays, fine⟩
  rcases ended value between result after late finish stays with ⟨staysAfter, fineAfter⟩
  refine ⟨staysAfter, fun event mem => ?_⟩
  rcases List.mem_append.mp mem with mem | mem
  · exact fine event mem
  · exact fineAfter event mem

theorem calm_map (calm : action.Calm inside allowed) (change : Value → Result) :
    (change <$> action).Calm inside allowed := by
  rw [map_eq_pure_bind]
  exact calm_bind calm fun _ => calm_pure

/-- A silent operation tells nothing that is not allowed. -/
theorem Silent.calm (silent : action.Silent)
    (stays : ∀ before value after, action.Yields before value after → inside before →
      inside after) : action.Calm inside allowed := by
  intro before value after effects run within
  refine ⟨stays before value after ⟨effects, run⟩ within, fun event mem => ?_⟩
  exact absurd rfl (silent before value after effects run (.cpu event) mem event)

/-- The same of a part of which it does not matter in what state it is. -/
theorem Silent.calm_part (silent : action.Silent) : action.Calm (fun _ => True) allowed :=
  silent.calm fun _ _ _ _ _ => trivial

theorem calm_get : (get : Operation State State).Calm inside allowed :=
  silent_get.calm fun _ _ _ run within => (yields_get.mp run).2 ▸ within

theorem calm_modify {change : State → State}
    (stays : ∀ state, inside state → inside (change state)) :
    (modify change : Operation State Unit).Calm inside allowed :=
  silent_modify.calm fun before _ _ run within => yields_modify.mp run ▸ stays before within

theorem calm_perform {effects : List Effect}
    (fine : ∀ event, .cpu event ∈ effects → allowed event) :
    (perform effects : Operation State Unit).Calm inside allowed := by
  intro before value after others run within
  cases run
  exact ⟨within, fine⟩

theorem calm_signal {event : Event} (fine : allowed event) :
    (signal event : Operation State Unit).Calm inside allowed := by
  refine calm_perform fun other mem => ?_
  cases List.mem_singleton.mp mem
  exact fine

theorem calm_log {notice : Notice} : (log notice : Operation State Unit).Calm inside allowed :=
  calm_perform (by simp)

theorem calm_print {bytes : List UInt8} :
    (print bytes : Operation State Unit).Calm inside allowed :=
  calm_perform (by simp)

theorem calm_liftM {result : Except Fault Value} :
    (liftM result : Operation State Value).Calm inside allowed :=
  silent_liftM.calm fun _ _ _ run within => (yields_liftM.mp run).2 ▸ within

/-- An operation on a part of the state comes to what it comes to on that part. -/
theorem within_apply {Part Rest : Type} (split : Whole → Part × Rest) (join : Part → Rest → Whole)
    (action : Operation Part Value) (before : Whole) :
    action.within split join before = (action (split before).1).map fun outcome =>
      { outcome with state := join outcome.state (split before).2 } := by
  simp only [Operation.within]
  cases action (split before).1 <;> rfl

theorem within_eq_ok {Part Rest : Type} {split : Whole → Part × Rest} {join : Part → Rest → Whole}
    {action : Operation Part Value} {before after : Whole} {effects : List Effect} :
    action.within split join before = .ok ⟨value, after, effects⟩ ↔
      ∃ part, action (split before).1 = .ok ⟨value, part, effects⟩ ∧
        after = join part (split before).2 := by
  rw [within_apply]
  cases action (split before).1 with
  | error fault => simp [Except.map]
  | ok outcome =>
      simp only [Except.map, Except.ok.injEq]
      constructor
      · rintro ⟨⟩
        exact ⟨outcome.state, rfl, rfl⟩
      · rintro ⟨part, rfl, rfl⟩
        rfl

theorem calm_within {Part Rest : Type} {split : Whole → Part × Rest} {join : Part → Rest → Whole}
    {action : Operation Part Value} {inside : Whole → Prop}
    (calm : action.Calm (fun _ => True) allowed)
    (stays : ∀ whole part, inside whole → inside (join part (split whole).2)) :
    (action.within split join).Calm inside allowed := by
  intro before value after effects run within
  rcases within_eq_ok.mp run with ⟨part, done, rfl⟩
  exact ⟨stays before part within, (calm _ _ _ _ done trivial).2⟩

theorem map_apply (change : Value → Result) (before : State) :
    (change <$> action) before =
      (action before).map fun outcome => { outcome with value := change outcome.value } := by
  rw [map_eq_pure_bind, bind_apply]
  cases action before with
  | error fault => rfl
  | ok outcome =>
      change Except.ok (Outcome.mk _ _ (outcome.effects ++ [])) = _
      rw [List.append_nil]
      rfl

section Masking

variable [Maskable State]

theorem acquire_apply (before : State) :
    Guard.acquire before =
      if Maskable.interrupts before then
        .ok ⟨⟨true⟩, Maskable.withInterrupts false before, [.cpu .disableInterrupts]⟩
      else .ok ⟨⟨false⟩, before, []⟩ := by
  have read : (Operation.modifyGet fun state => (Maskable.interrupts state, state)) before =
      .ok ⟨Maskable.interrupts before, before, []⟩ := rfl
  change (Operation.modifyGet (fun state => (Maskable.interrupts state, state)) >>= _) before = _
  rw [bind_apply, read]
  cases Maskable.interrupts before <;> rfl

/-- If interrupts are off, a masked operation is done as it is, and otherwise they are turned off
before it and on again after it. -/
theorem masked_apply (before : State) :
    masked action before =
      if Maskable.interrupts before then
        (action (Maskable.withInterrupts false before)).map fun outcome =>
          { value := outcome.value
            state := Maskable.withInterrupts true outcome.state
            effects := .cpu .disableInterrupts :: (outcome.effects ++ [.cpu .enableInterrupts]) }
      else action before := by
  rw [masked, bind_apply, acquire_apply]
  cases Maskable.interrupts before with
  | false =>
      simp only [Bool.false_eq_true, if_false]
      cases done : action before with
      | error fault => simp [bind, Except.bind, Operation.bind, done]
      | ok outcome =>
          simp only [bind, Except.bind, Operation.bind, done]
          exact congrArg (fun effects => Except.ok (Outcome.mk outcome.value outcome.state effects))
            (List.append_nil outcome.effects)
  | true =>
      simp only [if_true]
      cases done : action (Maskable.withInterrupts false before) with
      | error fault => simp [bind, Except.bind, Operation.bind, done, Except.map]
      | ok outcome =>
          simp only [bind, Except.bind, Operation.bind, done, Except.map]
          rfl

/-- Masking what is masked already comes to nothing. -/
theorem masked_map_masked
    (lawful : ∀ enabled (state : State),
      Maskable.interrupts (Maskable.withInterrupts enabled state) = enabled)
    (change : Value → Result) : masked (change <$> masked action) = change <$> masked action := by
  funext before
  rw [masked_apply]
  split
  · rename_i enabled
    have inner : masked action (Maskable.withInterrupts false before) =
        action (Maskable.withInterrupts false before) := by
      rw [masked_apply, lawful, if_neg Bool.false_ne_true]
    rw [map_apply, map_apply, inner, masked_apply, if_pos enabled]
    cases action (Maskable.withInterrupts false before) <;> rfl
  · rfl

/-- What a masked operation tells is what the operation tells, within brackets. -/
theorem masked_eq_ok {before after : State} {effects : List Effect}
    (run : masked action before = .ok ⟨value, after, effects⟩) :
    ∃ between inner,
      action (if Maskable.interrupts before then Maskable.withInterrupts false before else before) =
          .ok ⟨value, between, inner⟩ ∧
        after = (if Maskable.interrupts before then Maskable.withInterrupts true between
          else between) ∧
        told effects = bracket (Maskable.interrupts before) (told inner) := by
  rw [masked_apply] at run
  cases enabled : Maskable.interrupts before with
  | false =>
      rw [enabled, if_neg Bool.false_ne_true] at run
      exact ⟨after, effects, run, rfl, rfl⟩
  | true =>
      rw [enabled, if_pos rfl] at run
      cases done : action (Maskable.withInterrupts false before) with
      | error fault =>
          rw [done] at run
          cases run
      | ok outcome =>
          rw [done] at run
          cases run
          exact ⟨outcome.state, outcome.effects, done, rfl, told_around _ _ outcome.effects⟩

/-- A masked operation stops where the operation does. -/
theorem masked_eq_error {before : State} {fault : Fault}
    (stopped : action
      (if Maskable.interrupts before then Maskable.withInterrupts false before else before) =
        .error fault) : masked action before = .error fault := by
  rw [masked_apply]
  split
  · rename_i enabled
    rw [if_pos enabled] at stopped
    rw [stopped]
    rfl
  · rename_i disabled
    rw [if_neg disabled] at stopped
    exact stopped

/-- If the operation leaves the flag alone, it is shielded once it is masked. -/
theorem shielded_masked
    (lawful : ∀ enabled (state : State),
      Maskable.interrupts (Maskable.withInterrupts enabled state) = enabled)
    (calm : action.Calm (fun state => Maskable.interrupts state = false) allowed)
    (plain : ∀ event, allowed event → event.masks = false) : (masked action).Shielded allowed := by
  intro before value after effects run
  rcases masked_eq_ok run with ⟨between, inner, done, rfl, same⟩
  have disabled : Maskable.interrupts
      (if Maskable.interrupts before then Maskable.withInterrupts false before else before) =
        false := by
    split
    · exact lawful false before
    · exact Bool.of_not_eq_true ‹_›
  rcases calm _ value between inner done disabled with ⟨stays, fine⟩
  have allowedInner : ∀ event ∈ told inner, allowed event := fun event mem =>
    fine event (mem_told.mp mem)
  refine ⟨?_, ⟨told inner, allowedInner, same⟩, fun locked entry mem other => ?_⟩
  · split
    · rw [lawful, ‹Maskable.interrupts before = true›]
    · exact stays.trans (Bool.of_not_eq_true ‹_›).symm
  · rw [same] at mem
    exact Condition.interrupts_bracket (fun event mem => plain event (allowedInner event mem)) rfl
      mem other

/-- With interrupts off, a shielded operation leaves the flag alone. -/
theorem Shielded.calm (shielded : action.Shielded allowed) :
    action.Calm (fun state => Maskable.interrupts state = false) allowed := by
  intro before value after effects run disabled
  have shield := shielded before value after effects run
  refine ⟨shield.restored.trans disabled, fun event mem => ?_⟩
  rcases shield.bracketed with ⟨inner, fine, same⟩
  rw [disabled] at same
  apply fine
  have listed := mem_told.mpr mem
  rw [same] at listed
  exact listed

end Masking

end Rules

/-- The operation, begun in one state, ends without a fault in the other, with the value, and tells
the processor just the events, in order. -/
def Runs (action : Operation State Value) (before : State) (value : Value) (after : State)
    (events : List Event) : Prop :=
  ∃ effects, action before = .ok ⟨value, after, effects⟩ ∧ told effects = events

section Runs

variable {action first : Operation State Value} {next : Value → Operation State Result}
  {before between after : State} {value : Value} {result : Result} {early late : List Event}

theorem runs_bind (begun : first.Runs before value between early)
    (ended : (next value).Runs between result after late) :
    (first >>= next).Runs before result after (early ++ late) := by
  rcases begun with ⟨effects, start, rfl⟩
  rcases ended with ⟨more, finish, rfl⟩
  exact ⟨effects ++ more, bind_eq_ok.mpr ⟨value, between, effects, more, start, finish, rfl⟩,
    told_append effects more⟩

theorem runs_pure : (pure value : Operation State Value).Runs before value before [] :=
  ⟨[], rfl, rfl⟩

theorem runs_signal {event : Event} :
    (signal event : Operation State Unit).Runs before () before [event] :=
  ⟨[.cpu event], rfl, rfl⟩

theorem runs_log {notice : Notice} : (log notice : Operation State Unit).Runs before () before [] :=
  ⟨[.log notice], rfl, rfl⟩

theorem runs_get : (get : Operation State State).Runs before before before [] :=
  ⟨[], rfl, rfl⟩

theorem runs_set {state : State} : (set state : Operation State Unit).Runs before () state [] :=
  ⟨[], rfl, rfl⟩

theorem runs_modify {change : State → State} :
    (modify change : Operation State Unit).Runs before () (change before) [] :=
  ⟨[], rfl, rfl⟩

theorem Runs.yields {events : List Event} (run : action.Runs before value after events) :
    action.Yields before value after := by
  rcases run with ⟨effects, done, -⟩
  exact ⟨effects, done⟩

/-- An operation that tells the processor nothing runs without events. -/
theorem runs_of_calm {inside : State → Prop} (calm : action.Calm inside fun _ => False)
    (within : inside before) (run : action.Yields before value after) :
    action.Runs before value after [] := by
  rcases run with ⟨effects, done⟩
  exact ⟨effects, done, told_eq_nil (calm before value after effects done within).2⟩

theorem Silent.runs (silent : action.Silent) (run : action.Yields before value after) :
    action.Runs before value after [] :=
  runs_of_calm silent.calm_part trivial run

theorem runs_within {Part Rest : Type} {split : Whole → Part × Rest} {join : Part → Rest → Whole}
    {action : Operation Part Value} {whole : Whole} {part : Part} {events : List Event}
    (run : action.Runs (split whole).1 value part events) :
    (action.within split join).Runs whole value (join part (split whole).2) events := by
  rcases run with ⟨effects, done, same⟩
  exact ⟨effects, within_eq_ok.mpr ⟨part, done, rfl⟩, same⟩

theorem runs_masked [Maskable State] {events : List Event}
    (run : action.Runs
      (if Maskable.interrupts before then Maskable.withInterrupts false before else before)
      value between events) :
    (masked action).Runs before value
      (if Maskable.interrupts before then Maskable.withInterrupts true between else between)
      (bracket (Maskable.interrupts before) events) := by
  rcases run with ⟨inner, done, rfl⟩
  rcases yields_masked.mpr ⟨between, ⟨inner, done⟩, rfl⟩ with ⟨effects, ended⟩
  rcases masked_eq_ok ended with ⟨other, again, redone, -, same⟩
  rw [done] at redone
  cases redone
  exact ⟨effects, ended, same⟩

/-- What begins without events runs with those of the rest. -/
theorem runs_bind_silent (begun : first.Runs before value between [])
    (ended : (next value).Runs between result after late) :
    (first >>= next).Runs before result after late :=
  runs_bind begun ended

/-- An operation runs in one way only. -/
theorem Runs.unique {other : State} {found : Value} {events more : List Event}
    (run : action.Runs before value after events) (again : action.Runs before found other more) :
    value = found ∧ after = other ∧ events = more := by
  rcases run with ⟨effects, done, rfl⟩
  rcases again with ⟨others, redone, rfl⟩
  rw [done] at redone
  cases redone
  exact ⟨rfl, rfl, rfl⟩

section Restoring

variable [Maskable State] (before after : State)
  (overwritten : ∀ enabled other (state : State),
    Maskable.withInterrupts enabled (Maskable.withInterrupts other state) =
      Maskable.withInterrupts enabled state)
  (same : Maskable.withInterrupts (Maskable.interrupts before) before = before)

include overwritten same

/-- What is done with interrupts off, and leaves them off, is done with the flag as it is once it is
masked. -/
theorem masked_of_off {effects : List Effect}
    (run : action (Maskable.withInterrupts false before) =
      .ok ⟨value, Maskable.withInterrupts false after, effects⟩) :
    masked action before =
      .ok ⟨value, Maskable.withInterrupts (Maskable.interrupts before) after,
        if Maskable.interrupts before then
          .cpu .disableInterrupts :: (effects ++ [.cpu .enableInterrupts])
        else effects⟩ := by
  rw [masked_apply]
  cases enabled : Maskable.interrupts before with
  | false =>
      rw [enabled] at same
      rw [same] at run
      exact run
  | true =>
      rw [if_pos rfl, if_pos rfl, run, ← overwritten true false after]
      rfl

theorem runs_masked_of_off {events : List Event}
    (run : action.Runs (Maskable.withInterrupts false before) value
      (Maskable.withInterrupts false after) events) :
    (masked action).Runs before value (Maskable.withInterrupts (Maskable.interrupts before) after)
      (bracket (Maskable.interrupts before) events) := by
  rcases run with ⟨effects, done, rfl⟩
  refine ⟨_, masked_of_off before after overwritten same done, ?_⟩
  cases Maskable.interrupts before with
  | false => rfl
  | true => exact told_around _ _ effects

end Restoring

section Locking

variable [Lockable State]

theorem takeLock_apply (before : State) :
    takeLock before =
      if Lockable.locked before then .error .heldLock
      else .ok ⟨(), Lockable.withLock true before, []⟩ := by
  have read : (Operation.modifyGet fun state =>
      (Lockable.locked state, Lockable.withLock true state)) before =
        .ok ⟨Lockable.locked before, Lockable.withLock true before, []⟩ := rfl
  change (Operation.modifyGet (fun state =>
    (Lockable.locked state, Lockable.withLock true state)) >>= _) before = _
  rw [bind_apply, read]
  cases Lockable.locked before <;> rfl

/-- An operation under a lock that is held stops, and under a free lock it is done with the lock
held and leaves it free. -/
theorem underLock_apply (action : Operation State Value) (before : State) :
    underLock action before =
      if Lockable.locked before then .error .heldLock
      else (action (Lockable.withLock true before)).map fun outcome =>
        { outcome with state := Lockable.withLock false outcome.state } := by
  rw [underLock, bind_apply, takeLock_apply]
  split
  · rfl
  · change (do
      let final ← (action >>= fun value => giveLockBack >>= fun _ => pure value)
        (Lockable.withLock true before)
      return { final with effects := [] ++ final.effects }) = _
    rw [bind_apply]
    cases action (Lockable.withLock true before) with
    | error fault => rfl
    | ok outcome =>
        change Except.ok (Outcome.mk outcome.value (Lockable.withLock false outcome.state)
          (outcome.effects ++ [])) = _
        rw [List.append_nil]
        rfl

theorem runs_underLock {events : List Event} (free : Lockable.locked before = false)
    (run : action.Runs (Lockable.withLock true before) value after events) :
    (underLock action).Runs before value (Lockable.withLock false after) events := by
  rcases run with ⟨effects, done, same⟩
  refine ⟨effects, ?_, same⟩
  rw [underLock_apply, free, done]
  rfl

/-- Masking does not make a held lock free. -/
theorem masked_underLock_of_held [Maskable State]
    (blind : ∀ enabled (state : State),
      Lockable.locked (Maskable.withInterrupts enabled state) = Lockable.locked state)
    (held : Lockable.locked before = true) :
    masked (underLock action) before = .error .heldLock := by
  refine masked_eq_error ?_
  rw [underLock_apply, if_pos]
  split
  · exact (blind false before).trans held
  · exact held

end Locking

end Runs

end Operation

namespace Fallible

variable {State Cause Other Value Result : Type}

/-- From inside, the operation stays inside, and tells the processor only what is allowed. -/
def Calm (action : Fallible State Cause Value) (inside : State → Prop) (allowed : Event → Prop) :
    Prop :=
  Operation.Calm action inside allowed

section Rules

variable {action first : Fallible State Cause Value} {next : Value → Fallible State Cause Result}
  {handler : Cause → Fallible State Cause Value} {inside : State → Prop} {allowed : Event → Prop}

theorem calm_pure {value : Value} :
    Calm (pure value : Fallible State Cause Value) inside allowed :=
  Operation.calm_pure

theorem calm_throw {cause : Cause} :
    Calm (throw cause : Fallible State Cause Value) inside allowed :=
  Operation.calm_pure

theorem calm_bind (begun : first.Calm inside allowed)
    (ended : ∀ value, (next value).Calm inside allowed) : Calm (first >>= next) inside allowed := by
  refine Operation.calm_bind begun fun reply => ?_
  cases reply with
  | error cause => exact Operation.calm_pure
  | ok value => exact ended value

theorem calm_tryCatch (begun : action.Calm inside allowed)
    (handled : ∀ cause, (handler cause).Calm inside allowed) :
    Calm (tryCatch action handler) inside allowed := by
  refine Operation.calm_bind begun fun reply => ?_
  cases reply with
  | error cause => exact handled cause
  | ok value => exact Operation.calm_pure

theorem calm_lift {action : Operation State Value} (calm : action.Calm inside allowed) :
    Calm (liftM action : Fallible State Cause Value) inside allowed :=
  Operation.calm_map calm _

theorem calm_get : Calm (get : Fallible State Cause State) inside allowed :=
  calm_lift Operation.calm_get

theorem calm_log {notice : Notice} :
    Calm (log notice : Fallible State Cause Unit) inside allowed :=
  calm_lift Operation.calm_log

theorem calm_signal {event : Event} (fine : allowed event) :
    Calm (signal event : Fallible State Cause Unit) inside allowed :=
  calm_lift (Operation.calm_signal fine)

theorem calm_liftM {computed : Except Fault Value} :
    Calm (liftM computed : Fallible State Cause Value) inside allowed :=
  calm_lift Operation.calm_liftM

theorem calm_mapCause {change : Cause → Other} (calm : action.Calm inside allowed) :
    (mapCause change action).Calm inside allowed :=
  Operation.calm_map calm _

theorem calm_sweep {body : Nat → Fallible State Cause Unit}
    (step : ∀ number, (body number).Calm inside allowed) (count first : Nat) :
    (sweep count first body).Calm inside allowed := by
  -- The effects told so far only pile up, so the induction is over any such list.
  suffices general : ∀ earlier, (∀ event, .cpu event ∈ earlier → allowed event) →
      (Operation.sweepFrom body count first earlier).Calm inside allowed from
    general [] fun event mem => absurd mem List.not_mem_nil
  induction count generalizing first with
  | zero =>
      intro earlier fine before value after effects run within
      cases run
      exact ⟨within, fun event mem => fine event (List.mem_reverse.mp mem)⟩
  | succ count ih =>
      intro earlier fine before value after effects run within
      rw [Operation.sweepFrom] at run
      cases begun : body first before with
      | error fault => simp [begun] at run
      | ok outcome =>
          rcases outcome with ⟨reply, between, early⟩
          rcases step first before reply between early begun within with ⟨stays, fineEarly⟩
          have piled : ∀ event, .cpu event ∈ early.reverseAux earlier → allowed event := by
            intro event mem
            rcases List.mem_append.mp (List.reverseAux_eq ▸ mem) with mem | mem
            · exact fineEarly event (List.mem_reverse.mp mem)
            · exact fine event mem
          cases reply with
          | error cause =>
              simp only [begun] at run
              cases run
              exact ⟨stays, fun event mem => piled event (List.mem_reverse.mp mem)⟩
          | ok value =>
              simp only [begun] at run
              exact ih (first + 1) _ piled between _ after effects run stays

end Rules

/-- The operation ends as told, and tells the processor just the events, in order. -/
def Runs (action : Fallible State Cause Value) (before : State) (result : Except Cause Value)
    (after : State) (events : List Event) : Prop :=
  Operation.Runs action before result after events

section Runs

variable {action first : Fallible State Cause Value} {next : Value → Fallible State Cause Result}
  {before between after : State} {value : Value} {result : Except Cause Result}
  {early late : List Event}

theorem runs_bind (begun : first.Runs before (.ok value) between early)
    (ended : (next value).Runs between result after late) :
    Runs (first >>= next) before result after (early ++ late) :=
  Operation.runs_bind begun ended

theorem runs_lift {action : Operation State Value} (run : action.Runs before value after early) :
    Runs (liftM action : Fallible State Cause Value) before (.ok value) after early := by
  change Operation.Runs (Except.ok <$> action) before (.ok value) after early
  rw [map_eq_pure_bind, ← List.append_nil early]
  exact Operation.runs_bind run Operation.runs_pure

theorem runs_signal {event : Event} :
    Runs (signal event : Fallible State Cause Unit) before (.ok ()) before [event] :=
  runs_lift Operation.runs_signal

theorem runs_log {notice : Notice} :
    Runs (log notice : Fallible State Cause Unit) before (.ok ()) before [] :=
  runs_lift Operation.runs_log

theorem runs_get : Runs (get : Fallible State Cause State) before (.ok before) before [] :=
  runs_lift Operation.runs_get

theorem runs_modify {change : State → State} :
    Runs (modify change : Fallible State Cause Unit) before (.ok ()) (change before) [] :=
  runs_lift Operation.runs_modify

/-- A sequence ends where its first operation is refused. -/
theorem runs_stop {cause : Cause} (stopped : first.Runs before (.error cause) after early) :
    Runs (first >>= next) before (.error cause) after early := by
  rw [← List.append_nil early]
  exact Operation.runs_bind stopped Operation.runs_pure

theorem runs_mapCause {change : Cause → Other} {reply : Except Cause Value}
    (run : action.Runs before reply after early) :
    (mapCause change action).Runs before (reply.mapError change) after early := by
  change Operation.Runs (Except.mapError change <$> action) before _ after early
  rw [map_eq_pure_bind, ← List.append_nil early]
  exact Operation.runs_bind run Operation.runs_pure

end Runs

end Fallible

end KernelCore
