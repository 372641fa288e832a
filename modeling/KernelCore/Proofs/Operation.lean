import KernelCore.Interrupts
import Mathlib

/-!
# What an operation leads to

`Operation.Yields` relates the state in which an operation begins to the value and the state with
which it ends; an operation that stops with a fault is related to nothing. The lemmas below take
this relation apart along the structure of an operation, so that a proof about a composed operation
is a proof about its steps. Effects are left out: they never have a part in what follows.
-/

namespace KernelCore

namespace Checked

theorem add32_eq_ok_iff {left right sum : UInt32} :
    add32 left right = .ok sum ↔ sum.toNat = left.toNat + right.toNat := by
  unfold add32
  have bound : sum.toNat < UInt32.size := sum.toNat_lt_size
  split
  · rename_i fits
    rw [Except.ok.injEq, ← UInt32.toNat_inj, UInt32.toNat_add, Nat.mod_eq_of_lt fits]
    exact eq_comm
  · simp only [reduceCtorEq, false_iff]
    omega

theorem add32_of_lt {left right : UInt32} (fits : left.toNat + right.toNat < 2 ^ 32) :
    add32 left right = .ok (left + right) :=
  if_pos fits

theorem sub32_eq_ok_iff {left right difference : UInt32} :
    sub32 left right = .ok difference ↔ difference.toNat + right.toNat = left.toNat := by
  unfold sub32
  split
  · rename_i fits
    have fits' := UInt32.le_iff_toNat_le.mp fits
    rw [Except.ok.injEq, ← UInt32.toNat_inj, UInt32.toNat_sub_of_le _ _ fits]
    omega
  · rename_i exceeds
    have exceeds' := mt UInt32.le_iff_toNat_le.mpr exceeds
    simp only [reduceCtorEq, false_iff]
    omega

theorem sub32_of_le {left right : UInt32} (fits : right.toNat ≤ left.toNat) :
    sub32 left right = .ok (left - right) :=
  if_pos (UInt32.le_iff_toNat_le.mpr fits)

theorem add64_eq_error {left right : UInt64} {fault : Fault}
    (failed : add64 left right = .error fault) : fault = .addOverflow := by
  rw [add64] at failed
  split at failed
  · cases failed
  · exact (Except.error.inj failed).symm

theorem add64_eq_ok_iff {left right sum : UInt64} :
    add64 left right = .ok sum ↔ sum.toNat = left.toNat + right.toNat := by
  unfold add64
  have bound : sum.toNat < UInt64.size := sum.toNat_lt_size
  split
  · rename_i fits
    rw [Except.ok.injEq, ← UInt64.toNat_inj, UInt64.toNat_add, Nat.mod_eq_of_lt fits]
    exact eq_comm
  · simp only [reduceCtorEq, false_iff]
    omega

end Checked

namespace Operation

variable {State Whole Value Result : Type}

/-- The operation, begun in one state, ends without a fault, with the value and in the other
state. -/
def Yields (action : Operation State Value) (before : State) (value : Value) (after : State) :
    Prop :=
  ∃ effects, action before = .ok ⟨value, after, effects⟩

theorem Yields.unique {action : Operation State Value} {before first second : State}
    {value other : Value} (one : action.Yields before value first)
    (two : action.Yields before other second) : value = other ∧ first = second := by
  rcases one with ⟨effects, one⟩
  rcases two with ⟨more, two⟩
  rw [one] at two
  simp only [Except.ok.injEq, Outcome.mk.injEq] at two
  exact ⟨two.1, two.2.1⟩

/-- Where an operation is known to end, it ends nowhere else. -/
theorem Yields.iff {action : Operation State Value} {before after final : State}
    {value other : Value} (run : action.Yields before value after) :
    action.Yields before other final ↔ other = value ∧ final = after := by
  constructor
  · intro also
    exact also.unique run
  · rintro ⟨rfl, rfl⟩
    exact run

@[simp]
theorem yields_pure {value other : Value} {before after : State} :
    (pure value : Operation State Value).Yields before other after ↔
      other = value ∧ after = before := by
  simp only [Yields, pure_apply, Except.ok.injEq, Outcome.mk.injEq]
  grind

/-- An operation followed by another leads where the second leads from where the first does. -/
@[simp]
theorem yields_bind {first : Operation State Value} {next : Value → Operation State Result}
    {before after : State} {result : Result} :
    (first >>= next).Yields before result after ↔
      ∃ value between, first.Yields before value between ∧
        (next value).Yields between result after := by
  simp only [Yields, bind_apply]
  constructor
  · rintro ⟨effects, run⟩
    cases begun : first before with
    | error fault => simp [begun, bind, Except.bind] at run
    | ok outcome =>
        cases ended : next outcome.value outcome.state with
        | error fault => simp [begun, ended, bind, Except.bind] at run
        | ok final =>
            simp only [begun, ended, bind, Except.bind, pure, Except.pure, Except.ok.injEq,
              Outcome.mk.injEq] at run
            refine ⟨outcome.value, outcome.state, ⟨outcome.effects, rfl⟩, final.effects, ?_⟩
            rw [ended, ← run.1, ← run.2.1]
  · rintro ⟨value, between, ⟨effects, begun⟩, more, ended⟩
    exact ⟨effects ++ more, by simp [begun, ended, bind, Except.bind, pure, Except.pure]⟩

@[simp]
theorem yields_map {change : Value → Result} {action : Operation State Value}
    {before after : State} {result : Result} :
    (change <$> action).Yields before result after ↔
      ∃ value, action.Yields before value after ∧ result = change value := by
  rw [map_eq_pure_bind]
  simp only [yields_bind, yields_pure]
  grind

theorem yields_discard {action : Operation State Value} {before after : State} {value : Value}
    (run : action.Yields before value after) : (discard action).Yields before () after :=
  yields_map.mpr ⟨value, run, rfl⟩

@[simp]
theorem yields_get {before value after : State} :
    (get : Operation State State).Yields before value after ↔
      value = before ∧ after = before := by
  change (∃ effects, Except.ok _ = Except.ok _) ↔ _
  simp only [Except.ok.injEq, Outcome.mk.injEq]
  grind

@[simp]
theorem yields_set {before after state : State} {value : Unit} :
    (set state : Operation State Unit).Yields before value after ↔ after = state := by
  change (∃ effects, Except.ok _ = Except.ok _) ↔ _
  simp only [Except.ok.injEq, Outcome.mk.injEq]
  grind

@[simp]
theorem yields_modify {before after : State} {value : Unit} {change : State → State} :
    (modify change : Operation State Unit).Yields before value after ↔ after = change before := by
  change (∃ effects, Except.ok _ = Except.ok _) ↔ _
  simp only [Except.ok.injEq, Outcome.mk.injEq]
  grind

@[simp]
theorem yields_modifyGet {before after : State} {value : Value}
    {change : State → Value × State} :
    (MonadState.modifyGet change : Operation State Value).Yields before value after ↔
      change before = (value, after) := by
  change (∃ effects, Except.ok _ = Except.ok _) ↔ _
  simp only [Except.ok.injEq, Outcome.mk.injEq]
  grind

@[simp]
theorem yields_perform {before after : State} {value : Unit} {effects : List Effect} :
    (perform effects : Operation State Unit).Yields before value after ↔ after = before := by
  change (∃ effects, Except.ok _ = Except.ok _) ↔ _
  simp only [Except.ok.injEq, Outcome.mk.injEq]
  grind

@[simp]
theorem yields_log {before after : State} {value : Unit} {notice : Notice} :
    (log notice : Operation State Unit).Yields before value after ↔ after = before :=
  yields_perform

@[simp]
theorem yields_signal {before after : State} {value : Unit} {event : Event} :
    (signal event : Operation State Unit).Yields before value after ↔ after = before :=
  yields_perform

@[simp]
theorem yields_print {before after : State} {value : Unit} {bytes : List UInt8} :
    (print bytes : Operation State Unit).Yields before value after ↔ after = before :=
  yields_perform

@[simp]
theorem yields_liftM {result : Except Fault Value} {before after : State} {value : Value} :
    (liftM result : Operation State Value).Yields before value after ↔
      result = .ok value ∧ after = before := by
  change (∃ effects, ofExcept result before = _) ↔ _
  cases result with
  | error fault => simp [ofExcept]
  | ok found =>
      simp only [ofExcept, Except.ok.injEq, Outcome.mk.injEq]
      grind

theorem yields_within {Part Rest : Type} {split : Whole → Part × Rest}
    {join : Part → Rest → Whole} {action : Operation Part Value} {before after : Whole}
    {value : Value} :
    (action.within split join).Yields before value after ↔
      ∃ part, action.Yields (split before).1 value part ∧
        after = join part (split before).2 := by
  simp only [Yields, within]
  constructor
  · rintro ⟨effects, run⟩
    cases done : action (split before).1 with
    | error fault => simp [done] at run
    | ok outcome =>
        simp only [done, Except.ok.injEq, Outcome.mk.injEq] at run
        refine ⟨outcome.state, ⟨outcome.effects, ?_⟩, run.2.1.symm⟩
        rw [← run.1]
  · rintro ⟨part, ⟨effects, done⟩, rfl⟩
    exact ⟨effects, by simp [done]⟩

/-- What every call of a run establishes from itself holds after the run, and no call faults. -/
theorem yields_forM {Call : Type} {act : Call → Operation State Unit} {Holds : State → Prop}
    (step : ∀ call before, Holds before →
      ∃ after, (act call).Yields before () after ∧ Holds after)
    (calls : List Call) {start : State} (holds : Holds start) :
    ∃ final, (calls.forM act).Yields start () final ∧ Holds final := by
  induction calls generalizing start with
  | nil => exact ⟨start, yields_pure.mpr ⟨rfl, rfl⟩, holds⟩
  | cons call rest ih =>
      rcases step call start holds with ⟨between, begun, holdsBetween⟩
      rcases ih holdsBetween with ⟨final, ended, holdsFinal⟩
      exact ⟨final, yields_bind.mpr ⟨(), between, begun, ended⟩, holdsFinal⟩

theorem yields_append {Call : Type} {act : Call → Operation State Unit} {calls rest : List Call}
    {start final : State} :
    ((calls ++ rest).forM act).Yields start () final ↔
      ∃ between, (calls.forM act).Yields start () between ∧
        (rest.forM act).Yields between () final := by
  rw [List.forM_eq_forM, List.forM_append, yields_bind]
  constructor
  · rintro ⟨_, between, begun, ended⟩
    exact ⟨between, begun, ended⟩
  · rintro ⟨between, begun, ended⟩
    exact ⟨(), between, begun, ended⟩

section Runs

variable {Call : Type} {act : Call → Operation State Value}

theorem yields_mapM_cons {call : Call} {rest : List Call} {values : List Value}
    {start final : State} :
    ((call :: rest).mapM act).Yields start values final ↔
      ∃ value between others, (act call).Yields start value between ∧
        (rest.mapM act).Yields between others final ∧ values = value :: others := by
  simp only [List.mapM_cons, yields_bind, yields_pure]
  grind

/-- What every call of a run establishes from itself holds after the run, of all the values that
were given so far. -/
theorem yields_mapM {Holds : List Value → State → Prop}
    (step : ∀ call values before, Holds values before →
      ∃ value after, (act call).Yields before value after ∧ Holds (values ++ [value]) after)
    (calls : List Call) {values : List Value} {start : State} (holds : Holds values start) :
    ∃ more final, (calls.mapM act).Yields start more final ∧ Holds (values ++ more) final := by
  induction calls generalizing values start with
  | nil => exact ⟨[], start, yields_pure.mpr ⟨rfl, rfl⟩, by simpa using holds⟩
  | cons call rest ih =>
      rcases step call values start holds with ⟨value, between, begun, holdsBetween⟩
      rcases ih holdsBetween with ⟨more, final, ended, holdsFinal⟩
      refine ⟨value :: more, final, ?_, by simpa using holdsFinal⟩
      exact yields_mapM_cons.mpr ⟨value, between, more, begun, ended, rfl⟩

end Runs

/-- What an operation leads to can be found by evaluating it. -/
theorem yields_of_evaluation (action : Operation State Value) (start : State)
    (test : Value → State → Bool)
    (evaluated : (match action start with
      | .ok outcome => test outcome.value outcome.state
      | .error _ => false) = true) :
    ∃ value final, action.Yields start value final ∧ test value final = true := by
  cases ended : action start with
  | error fault => simp [ended] at evaluated
  | ok outcome =>
      simp only [ended] at evaluated
      exact ⟨outcome.value, outcome.state, ⟨outcome.effects, ended⟩, evaluated⟩

/-- What every call of a run keeps holds after the run. -/
theorem Yields.keeps {Call : Type} {act : Call → Operation State Unit} {Holds : State → Prop}
    (step : ∀ call before after, Holds before → (act call).Yields before () after → Holds after)
    {calls : List Call} {start final : State} (run : (calls.forM act).Yields start () final)
    (holds : Holds start) : Holds final := by
  induction calls generalizing start with
  | nil =>
      rcases yields_pure.mp run with ⟨-, rfl⟩
      exact holds
  | cons call rest ih =>
      rcases yields_bind.mp run with ⟨_, between, begun, ended⟩
      exact ih ended (step call start between holds begun)

/-- The operation, begun in the state, ends without a fault, unless a sum does not fit its word. -/
def Ends (action : Operation State Value) (before : State) : Prop :=
  (∃ value after, action.Yields before value after) ∨ action before = .error .addOverflow

theorem ends_bind {first : Operation State Value} {next : Value → Operation State Result}
    {before : State} (begun : first.Ends before)
    (onward : ∀ value between, first.Yields before value between → (next value).Ends between) :
    (first >>= next).Ends before := by
  rcases begun with ⟨value, between, effects, begun⟩ | overflow
  · rcases onward value between ⟨effects, begun⟩ with ⟨result, after, ended⟩ | overflow
    · exact Or.inl ⟨result, after, yields_bind.mpr ⟨value, between, ⟨effects, begun⟩, ended⟩⟩
    · right
      rw [bind_apply, begun]
      change (do let final ← next value between; _) = _
      rw [overflow]
      rfl
  · right
    rw [bind_apply, overflow]
    rfl

theorem ends_add64 (left right : UInt64) (before : State) :
    (liftM (Checked.add64 left right) : Operation State UInt64).Ends before := by
  by_cases fits : left.toNat + right.toNat < UInt64.size
  · exact Or.inl ⟨left + right, before, yields_liftM.mpr ⟨if_pos fits, rfl⟩⟩
  · right
    change ofExcept (Checked.add64 left right) before = _
    rw [Checked.add64, if_neg fits]
    rfl

theorem ends_map {change : Value → Result} {action : Operation State Value} {before : State}
    (ends : action.Ends before) : (change <$> action).Ends before := by
  rw [map_eq_pure_bind]
  exact ends_bind ends fun _ _ _ => Or.inl (by simp)

/-- An operation that ends unless a sum does not fit stops with no other fault. -/
theorem Ends.fault {action : Operation State Value} {before : State} (ends : action.Ends before)
    {fault : Fault} (stopped : action before = .error fault) : fault = .addOverflow := by
  rcases ends with ⟨value, after, effects, done⟩ | overflow
  · rw [done] at stopped
    cases stopped
  · rw [overflow, Except.error.injEq] at stopped
    exact stopped.symm

end Operation

namespace Fallible

variable {State Cause Other Value Result : Type}

/-- The operation, begun in one state, ends without a fault in the other state, with a value or
refused for a cause. -/
def Yields (action : Fallible State Cause Value) (before : State) (result : Except Cause Value)
    (after : State) : Prop :=
  Operation.Yields action before result after

variable {before after : State}

theorem Yields.unique {action : Fallible State Cause Value} {first second : State}
    {result other : Except Cause Value} (one : action.Yields before result first)
    (two : action.Yields before other second) : result = other ∧ first = second :=
  Operation.Yields.unique one two

theorem Yields.iff {action : Fallible State Cause Value} {final : State}
    {result other : Except Cause Value} (run : action.Yields before result after) :
    action.Yields before other final ↔ other = result ∧ final = after :=
  Operation.Yields.iff run

@[simp]
theorem yields_result {action : Fallible State Cause Value} {result : Except Cause Value} :
    action.result.Yields before result after ↔ action.Yields before result after :=
  Iff.rfl

@[simp]
theorem yields_pure {value : Value} {result : Except Cause Value} :
    Yields (pure value : Fallible State Cause Value) before result after ↔
      result = .ok value ∧ after = before :=
  Operation.yields_pure

@[simp]
theorem yields_throw {cause : Cause} {result : Except Cause Value} :
    Yields (throw cause : Fallible State Cause Value) before result after ↔
      result = .error cause ∧ after = before :=
  Operation.yields_pure

/-- A sequence is refused where its first operation is, and else goes on with the second. -/
@[simp]
theorem yields_bind {first : Fallible State Cause Value}
    {next : Value → Fallible State Cause Result} {result : Except Cause Result} :
    Yields (first >>= next) before result after ↔
      (∃ cause, first.Yields before (.error cause) after ∧ result = .error cause) ∨
        ∃ value between, first.Yields before (.ok value) between ∧
          (next value).Yields between result after := by
  change Operation.Yields (Operation.bind first _) before result after ↔ _
  apply Operation.yields_bind.trans
  constructor
  · rintro ⟨reply, between, begun, ended⟩
    cases reply with
    | error cause =>
        rcases Operation.yields_pure.mp ended with ⟨rfl, rfl⟩
        exact Or.inl ⟨cause, begun, rfl⟩
    | ok value => exact Or.inr ⟨value, between, begun, ended⟩
  · rintro (⟨cause, begun, rfl⟩ | ⟨value, between, begun, ended⟩)
    · exact ⟨.error cause, after, begun, Operation.yields_pure.mpr ⟨rfl, rfl⟩⟩
    · exact ⟨.ok value, between, begun, ended⟩

@[simp]
theorem yields_map {change : Value → Result} {action : Fallible State Cause Value}
    {result : Except Cause Result} :
    Yields (change <$> action) before result after ↔
      (∃ cause, action.Yields before (.error cause) after ∧ result = .error cause) ∨
        ∃ value, action.Yields before (.ok value) after ∧ result = .ok (change value) := by
  rw [map_eq_pure_bind, yields_bind]
  simp only [yields_pure]
  grind

@[simp]
theorem yields_lift {action : Operation State Value} {result : Except Cause Value} :
    Yields (liftM action : Fallible State Cause Value) before result after ↔
      ∃ value, action.Yields before value after ∧ result = .ok value :=
  Operation.yields_map

@[simp]
theorem yields_always {action : Operation State Value} {result : Except Cause Value} :
    Yields (always action : Fallible State Cause Value) before result after ↔
      ∃ value, action.Yields before value after ∧ result = .ok value :=
  Operation.yields_map

@[simp]
theorem yields_liftM {computed : Except Fault Value} {result : Except Cause Value} :
    Yields (liftM computed : Fallible State Cause Value) before result after ↔
      ∃ value, computed = .ok value ∧ after = before ∧ result = .ok value := by
  change Yields (liftM (liftM computed : Operation State Value)) before result after ↔ _
  simp only [yields_lift, Operation.yields_liftM, and_assoc]

@[simp]
theorem yields_get {result : Except Cause State} :
    Yields (get : Fallible State Cause State) before result after ↔
      result = .ok before ∧ after = before := by
  change Yields (liftM (get : Operation State State)) before result after ↔ _
  simp only [yields_lift, Operation.yields_get]
  grind

@[simp]
theorem yields_set {state : State} {result : Except Cause Unit} :
    Yields (set state : Fallible State Cause Unit) before result after ↔
      result = .ok () ∧ after = state := by
  change Yields (liftM (set state : Operation State Unit)) before result after ↔ _
  simp only [yields_lift, Operation.yields_set]
  grind

@[simp]
theorem yields_modify {change : State → State} {result : Except Cause Unit} :
    Yields (modify change : Fallible State Cause Unit) before result after ↔
      result = .ok () ∧ after = change before := by
  change Yields (liftM (modify change : Operation State Unit)) before result after ↔ _
  simp only [yields_lift, Operation.yields_modify]
  grind

@[simp]
theorem yields_perform {effects : List Effect} {result : Except Cause Unit} :
    Yields (perform effects : Fallible State Cause Unit) before result after ↔
      result = .ok () ∧ after = before := by
  change Yields (liftM (perform effects : Operation State Unit)) before result after ↔ _
  simp only [yields_lift, Operation.yields_perform]
  grind

@[simp]
theorem yields_log {notice : Notice} {result : Except Cause Unit} :
    Yields (log notice : Fallible State Cause Unit) before result after ↔
      result = .ok () ∧ after = before :=
  yields_perform

@[simp]
theorem yields_signal {event : Event} {result : Except Cause Unit} :
    Yields (signal event : Fallible State Cause Unit) before result after ↔
      result = .ok () ∧ after = before :=
  yields_perform

theorem yields_mapCause {change : Cause → Other} {action : Fallible State Cause Value}
    {result : Except Other Value} :
    (mapCause change action).Yields before result after ↔
      ∃ reply, action.Yields before reply after ∧ result = reply.mapError change :=
  Operation.yields_map

@[simp]
theorem yields_mapCause_ok {change : Cause → Other} {action : Fallible State Cause Value}
    {value : Value} :
    (mapCause change action).Yields before (.ok value) after ↔
      action.Yields before (.ok value) after := by
  rw [yields_mapCause]
  constructor
  · rintro ⟨reply | found, run, same⟩
    · cases same
    · cases same
      exact run
  · intro run
    exact ⟨.ok value, run, rfl⟩

@[simp]
theorem yields_mapCause_error {change : Cause → Other} {action : Fallible State Cause Value}
    {cause : Other} :
    (mapCause change action).Yields before (.error cause) after ↔
      ∃ found, action.Yields before (.error found) after ∧ cause = change found := by
  rw [yields_mapCause]
  constructor
  · rintro ⟨found | value, run, same⟩
    · exact ⟨found, run, Except.error.inj same⟩
    · cases same
  · rintro ⟨found, run, rfl⟩
    exact ⟨.error found, run, rfl⟩

@[simp]
theorem yields_tryCatch {action : Fallible State Cause Value}
    {handler : Cause → Fallible State Cause Value} {result : Except Cause Value} :
    Yields (tryCatch action handler) before result after ↔
      (∃ value, action.Yields before (.ok value) after ∧ result = .ok value) ∨
        ∃ cause between, action.Yields before (.error cause) between ∧
          (handler cause).Yields between result after := by
  change Operation.Yields (Operation.bind action _) before result after ↔ _
  apply Operation.yields_bind.trans
  constructor
  · rintro ⟨reply, between, begun, ended⟩
    cases reply with
    | error cause => exact Or.inr ⟨cause, between, begun, ended⟩
    | ok value =>
        rcases Operation.yields_pure.mp ended with ⟨rfl, rfl⟩
        exact Or.inl ⟨value, begun, rfl⟩
  · rintro (⟨value, begun, rfl⟩ | ⟨cause, between, begun, ended⟩)
    · exact ⟨.ok value, after, begun, Operation.yields_pure.mpr ⟨rfl, rfl⟩⟩
    · exact ⟨.error cause, between, begun, ended⟩

theorem yields_sweep_zero {body : Nat → Fallible State Cause Unit} {first : Nat}
    {before after : State} {result : Except Cause Unit} :
    (sweep 0 first body).Yields before result after ↔ result = .ok () ∧ after = before :=
  yields_pure

/-- What was told before a sweep has no bearing on where it leads. -/
theorem yields_sweepFrom {body : Nat → Fallible State Cause Unit} {count first : Nat}
    {told : List Effect} {before after : State} {result : Except Cause Unit} :
    Yields (Operation.sweepFrom body count first told) before result after ↔
      (sweep count first body).Yields before result after := by
  suffices moved : ∀ told other : List Effect,
      Yields (Operation.sweepFrom body count first told) before result after →
        Yields (Operation.sweepFrom body count first other) before result after from
    ⟨moved told [], moved [] told⟩
  induction count generalizing first before with
  | zero =>
      rintro told other ⟨effects, run⟩
      cases run
      exact ⟨other.reverse, rfl⟩
  | succ count ih =>
      rintro told other ⟨effects, run⟩
      rw [Operation.sweepFrom] at run
      cases begun : body first before with
      | error fault => simp [begun] at run
      | ok outcome =>
          rcases outcome with ⟨cause | _, between, early⟩
          · simp only [begun] at run
            cases run
            exact ⟨(early.reverseAux other).reverse, by simp only [Operation.sweepFrom, begun]⟩
          · simp only [begun] at run
            rcases ih _ (early.reverseAux other) ⟨effects, run⟩ with ⟨late, ended⟩
            exact ⟨late, by simp only [Operation.sweepFrom, begun, ended]⟩

/-- A sweep does the body for the first number, and unless that is refused sweeps the others. -/
theorem yields_sweep_succ {body : Nat → Fallible State Cause Unit} {count first : Nat}
    {before after : State} {result : Except Cause Unit} :
    (sweep (count + 1) first body).Yields before result after ↔
      (∃ cause, (body first).Yields before (.error cause) after ∧ result = .error cause) ∨
        ∃ between, (body first).Yields before (.ok ()) between ∧
          (sweep count (first + 1) body).Yields between result after := by
  constructor
  · rintro ⟨effects, run⟩
    rw [sweep, Operation.sweepFrom] at run
    cases begun : body first before with
    | error fault => simp [begun] at run
    | ok outcome =>
        rcases outcome with ⟨cause | _, between, early⟩
        · simp only [begun] at run
          cases run
          exact Or.inl ⟨cause, ⟨early, begun⟩, rfl⟩
        · simp only [begun] at run
          exact Or.inr ⟨between, ⟨early, begun⟩, yields_sweepFrom.mp ⟨effects, run⟩⟩
  · rintro (⟨cause, ⟨early, begun⟩, rfl⟩ | ⟨between, ⟨early, begun⟩, ended⟩)
    · exact ⟨(early.reverseAux []).reverse, by simp only [sweep, Operation.sweepFrom, begun]⟩
    · rcases yields_sweepFrom.mpr ended with ⟨late, ended⟩
      exact ⟨late, by simp only [sweep, Operation.sweepFrom, begun]; exact ended⟩

/-- A sweep goes on as long as the body establishes what it needs for the next number, and ends
where the body is refused. It cannot fault. -/
theorem yields_sweep {body : Nat → Fallible State Cause Unit} {Holds : Nat → State → Prop}
    {Stopped : Cause → State → Prop} {past : Nat}
    (step : ∀ number before, number < past → Holds number before →
      (∃ after, (body number).Yields before (.ok ()) after ∧ Holds (number + 1) after) ∨
        ∃ cause after, (body number).Yields before (.error cause) after ∧ Stopped cause after)
    (count first : Nat) (reach : first + count = past) {start : State}
    (holds : Holds first start) :
    (∃ final, (sweep count first body).Yields start (.ok ()) final ∧ Holds past final) ∨
      ∃ cause final, (sweep count first body).Yields start (.error cause) final ∧
        Stopped cause final := by
  induction count generalizing first start with
  | zero =>
      rw [Nat.add_zero] at reach
      exact Or.inl ⟨start, yields_sweep_zero.mpr ⟨rfl, rfl⟩, reach ▸ holds⟩
  | succ count ih =>
      rcases step first start (by omega) holds with
        ⟨between, begun, holdsNext⟩ | ⟨cause, after, begun, stopped⟩
      · rcases ih (first + 1) (by omega) holdsNext with
          ⟨final, ended, holdsFinal⟩ | ⟨cause, final, ended, stopped⟩
        · exact Or.inl ⟨final, yields_sweep_succ.mpr (Or.inr ⟨between, begun, ended⟩), holdsFinal⟩
        · exact Or.inr ⟨cause, final, yields_sweep_succ.mpr (Or.inr ⟨between, begun, ended⟩),
            stopped⟩
      · exact Or.inr ⟨cause, after, yields_sweep_succ.mpr (Or.inl ⟨cause, begun, rfl⟩), stopped⟩

end Fallible

section Masking

variable {State Value : Type} [Maskable State] {before after : State}

theorem yields_acquire {guard : Guard} :
    Guard.acquire.Yields before guard after ↔
      guard = ⟨Maskable.interrupts before⟩ ∧
        after = if Maskable.interrupts before then Maskable.withInterrupts false before
          else before := by
  cases enabled : Maskable.interrupts before <;>
    simp [Guard.acquire, disableInterrupts, and_assoc, and_comm, enabled]

theorem yields_drop {guard : Guard} {value : Unit} :
    guard.drop.Yields before value after ↔
      after = if guard.wereEnabled then Maskable.withInterrupts true before else before := by
  cases enabled : guard.wereEnabled <;> simp [Guard.drop, enableInterrupts, enabled]

/-- A masked operation is done with interrupts off, and the flag is then put back. -/
theorem yields_masked {action : Operation State Value} {value : Value} :
    (masked action).Yields before value after ↔
      ∃ between,
        action.Yields
            (if Maskable.interrupts before then Maskable.withInterrupts false before else before)
            value between ∧
          after = if Maskable.interrupts before then Maskable.withInterrupts true between
            else between := by
  rw [masked, Operation.yields_bind]
  constructor
  · rintro ⟨guard, start, acquired, rest⟩
    rcases yields_acquire.mp acquired with ⟨rfl, rfl⟩
    rcases Operation.yields_bind.mp rest with ⟨result, between, done, rest⟩
    rcases Operation.yields_bind.mp rest with ⟨_, final, dropped, ended⟩
    rcases Operation.yields_pure.mp ended with ⟨rfl, rfl⟩
    exact ⟨between, done, yields_drop.mp dropped⟩
  · rintro ⟨between, done, rfl⟩
    refine ⟨_, _, yields_acquire.mpr ⟨rfl, rfl⟩, ?_⟩
    refine Operation.yields_bind.mpr ⟨value, between, done, ?_⟩
    exact Operation.yields_bind.mpr
      ⟨(), _, yields_drop.mpr rfl, Operation.yields_pure.mpr ⟨rfl, rfl⟩⟩

/-- Operations that do the same do the same when they are masked, their effects included. -/
theorem masked_congr {first second : Operation State Value}
    (same : ∀ start, (start = before ∨ start = Maskable.withInterrupts false before) →
      first start = second start) : masked first before = masked second before := by
  rw [masked, masked, Operation.bind_apply, Operation.bind_apply]
  have agree : ∀ outcome, (Guard.acquire : Operation State Guard) before = .ok outcome →
      first outcome.state = second outcome.state := by
    intro outcome acquired
    apply same
    have done := yields_acquire.mp ⟨outcome.effects, acquired⟩
    rw [done.2]
    split
    · exact Or.inr rfl
    · exact Or.inl rfl
  cases acquired : (Guard.acquire : Operation State Guard) before with
  | error fault => rfl
  | ok outcome =>
      simp only [bind, Except.bind, Operation.bind, agree outcome acquired]

end Masking

end KernelCore
