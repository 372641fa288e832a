import KernelCore.Proofs.Effects

/-!
# Which address space is loaded

The processor works with the address space that it was last told to load, and `rootAfter` reads off
the effects of an operation which one that is. `Operation.Leads` is about what an operation leads
to together with that address space. Most operations are `Passive`: they load none, and leave alone
what is looked at of the state.
-/

namespace KernelCore

/-- The address space that is loaded after an effect, given the one before. -/
def Effect.root (effect : Effect) (root : Option Directory) : Option Directory :=
  match effect with
  | .cpu (.loadDirectory directory) => some directory
  | _ => root

/-- The address space that is loaded after the effects, given the one before. -/
def rootAfter (root : Option Directory) (effects : List Effect) : Option Directory :=
  effects.foldl (fun root effect => effect.root root) root

section Roots

variable {effects : List Effect}

theorem rootAfter_append (root : Option Directory) (effects more : List Effect) :
    rootAfter root (effects ++ more) = rootAfter (rootAfter root effects) more :=
  List.foldl_append

/-- Where nothing is loaded, what was loaded stays. -/
theorem rootAfter_of_unloaded (root : Option Directory)
    (unloaded : ∀ directory, .cpu (.loadDirectory directory) ∉ effects) :
    rootAfter root effects = root := by
  induction effects with
  | nil => rfl
  | cons effect rest ih =>
      have stays : effect.root root = root := by
        unfold Effect.root
        split
        · exact absurd List.mem_cons_self (unloaded _)
        · rfl
      rw [rootAfter, List.foldl_cons, stays]
      exact ih fun directory mem => unloaded directory (List.mem_cons_of_mem effect mem)

end Roots

namespace Operation

variable {State Whole Value Result View : Type}

/-- However the operation, begun in the state with an address space loaded, comes to an end, it ends
as told, given what is loaded then. -/
def Leads (action : Operation State Value) (before : State) (root : Option Directory)
    (ends : Value → State → Option Directory → Prop) : Prop :=
  ∀ value after effects, action before = .ok ⟨value, after, effects⟩ →
    ends value after (rootAfter root effects)

/-- The operation loads no address space, and what is looked at of the state stays as it is. -/
def Passive (action : Operation State Value) (view : State → View) : Prop :=
  ∀ before value after effects, action before = .ok ⟨value, after, effects⟩ →
    view after = view before ∧ ∀ directory, .cpu (.loadDirectory directory) ∉ effects

section Rules

variable {action first : Operation State Value} {next : Value → Operation State Result}
  {before : State} {root : Option Directory} {value : Value} {view : State → View}

/-- The effects of a sequence are those of the first operation and those of the second. -/
theorem bind_eq_ok {result : Result} {after : State} {effects : List Effect} :
    (first >>= next) before = .ok ⟨result, after, effects⟩ ↔
      ∃ value between early late, first before = .ok ⟨value, between, early⟩ ∧
        next value between = .ok ⟨result, after, late⟩ ∧ effects = early ++ late := by
  rw [bind_apply]
  constructor
  · intro run
    cases begun : first before with
    | error fault => simp [begun, bind, Except.bind] at run
    | ok outcome =>
        cases ended : next outcome.value outcome.state with
        | error fault => simp [begun, ended, bind, Except.bind] at run
        | ok final =>
            simp only [begun, ended, bind, Except.bind, pure, Except.pure, Except.ok.injEq,
              Outcome.mk.injEq] at run
            rcases run with ⟨rfl, rfl, rfl⟩
            exact ⟨_, _, _, _, rfl, ended, rfl⟩
  · rintro ⟨value, between, early, late, begun, ended, rfl⟩
    simp [begun, ended, bind, Except.bind, pure, Except.pure]

theorem leads_bind {ends : Result → State → Option Directory → Prop}
    {mid : Value → State → Option Directory → Prop} (begun : first.Leads before root mid)
    (ended : ∀ value between loaded, mid value between loaded →
      (next value).Leads between loaded ends) : (first >>= next).Leads before root ends := by
  intro result after effects run
  rcases bind_eq_ok.mp run with ⟨value, between, early, late, start, finish, rfl⟩
  rw [rootAfter_append]
  exact ended value between _ (begun value between early start) result after late finish

theorem leads_map {change : Value → Result} {ends : Result → State → Option Directory → Prop}
    (led : action.Leads before root fun value => ends (change value)) :
    (change <$> action).Leads before root ends := by
  rw [map_eq_pure_bind]
  refine leads_bind led fun value after loaded ended => ?_
  intro result final effects run
  cases run
  exact ended

theorem Passive.leads (passive : action.Passive view)
    {ends : Value → State → Option Directory → Prop}
    (comes : ∀ value after, action.Yields before value after → view after = view before →
      ends value after root) : action.Leads before root ends := by
  intro value after effects run
  rcases passive before value after effects run with ⟨same, unloaded⟩
  rw [rootAfter_of_unloaded root unloaded]
  exact comes value after ⟨effects, run⟩ same

theorem Passive.unit (passive : action.Passive view) : action.Passive fun _ => () :=
  fun before value after effects run => ⟨rfl, (passive before value after effects run).2⟩

/-- What an operation on a part leads to, told of the whole. -/
theorem leads_within {Part Rest : Type} {split : Whole → Part × Rest} {join : Part → Rest → Whole}
    {action : Operation Part Value} {whole : Whole}
    {ends : Value → Whole → Option Directory → Prop}
    (led : action.Leads (split whole).1 root fun value part loaded =>
      ends value (join part (split whole).2) loaded) :
    (action.within split join).Leads whole root ends := by
  intro value after effects run
  simp only [within] at run
  cases done : action (split whole).1 with
  | error fault => simp [done] at run
  | ok outcome =>
      simp only [done, Except.ok.injEq, Outcome.mk.injEq] at run
      rcases run with ⟨rfl, rfl, rfl⟩
      exact led _ _ _ done

/-- A silent operation loads nothing. -/
theorem Silent.passive (silent : action.Silent)
    (same : ∀ before value after, action.Yields before value after → view after = view before) :
    action.Passive view := by
  intro before value after effects run
  refine ⟨same before value after ⟨effects, run⟩, ?_⟩
  intro directory mem
  exact silent before value after effects run _ mem _ rfl

theorem Silent.passive_unit (silent : action.Silent) : action.Passive fun _ => () :=
  silent.passive fun _ _ _ _ => rfl

theorem passive_pure : (pure value : Operation State Value).Passive view :=
  silent_pure.passive fun _ _ _ run => congrArg view (yields_pure.mp run).2

theorem passive_get : (get : Operation State State).Passive view :=
  silent_get.passive fun _ _ _ run => congrArg view (yields_get.mp run).2

theorem passive_modify {change : State → State} (same : ∀ state, view (change state) = view state) :
    (modify change : Operation State Unit).Passive view := by
  refine silent_modify.passive fun before _ _ run => ?_
  rw [yields_modify.mp run]
  exact same before

theorem passive_modifyGet {change : State → Value × State}
    (same : ∀ state, view (change state).2 = view state) :
    (modifyGet change : Operation State Value).Passive view := by
  intro before value after effects run
  cases run
  exact ⟨same before, fun _ => List.not_mem_nil⟩

theorem passive_perform {effects : List Effect}
    (unloaded : ∀ directory, .cpu (.loadDirectory directory) ∉ effects) :
    (perform effects : Operation State Unit).Passive view := by
  intro before value after told run
  cases run
  exact ⟨rfl, unloaded⟩

theorem passive_log {notice : Notice} : (log notice : Operation State Unit).Passive view :=
  passive_perform (by simp)

theorem passive_print {bytes : List UInt8} : (print bytes : Operation State Unit).Passive view :=
  passive_perform (by simp)

theorem passive_signal {event : Event} (other : ∀ directory, event ≠ .loadDirectory directory) :
    (signal event : Operation State Unit).Passive view :=
  passive_perform (by simpa [eq_comm] using other)

theorem passive_bind (begun : first.Passive view) (ended : ∀ value, (next value).Passive view) :
    (first >>= next).Passive view := by
  intro before result after effects run
  rcases bind_eq_ok.mp run with ⟨value, between, early, late, start, finish, rfl⟩
  rcases begun before value between early start with ⟨same, unloaded⟩
  rcases ended value between result after late finish with ⟨sameAfter, unloadedAfter⟩
  refine ⟨sameAfter.trans same, ?_⟩
  intro directory mem
  rcases List.mem_append.mp mem with mem | mem
  · exact unloaded directory mem
  · exact unloadedAfter directory mem

theorem passive_map (passive : action.Passive view) (change : Value → Result) :
    (change <$> action).Passive view := by
  rw [map_eq_pure_bind]
  exact passive_bind passive fun _ => passive_pure

/-- What is looked at of the whole is either the rest or a view of the part. -/
theorem passive_within {Part Rest Inner : Type} {split : Whole → Part × Rest}
    {join : Part → Rest → Whole} {action : Operation Part Value} {view : Whole → View}
    {inner : Part → Inner} (passive : action.Passive inner)
    (same : ∀ whole part, inner part = inner (split whole).1 →
      view (join part (split whole).2) = view whole) :
    (action.within split join).Passive view := by
  intro before value after effects run
  simp only [within] at run
  cases done : action (split before).1 with
  | error fault => simp [done] at run
  | ok outcome =>
      simp only [done, Except.ok.injEq, Outcome.mk.injEq] at run
      rcases run with ⟨rfl, rfl, rfl⟩
      rcases passive _ _ _ _ done with ⟨unchanged, unloaded⟩
      exact ⟨same before _ unchanged, unloaded⟩

section Masking

variable [Maskable State]

theorem passive_acquire
    (same : ∀ enabled state, view (Maskable.withInterrupts enabled state) = view state) :
    (Guard.acquire : Operation State Guard).Passive view := by
  refine passive_bind (passive_modifyGet fun _ => rfl) fun enabled => ?_
  cases enabled with
  | false => exact passive_pure
  | true =>
      refine passive_bind (passive_bind (passive_signal (by simp)) fun _ => ?_) fun _ =>
        passive_pure
      exact passive_modify (same false)

theorem passive_drop (guard : Guard)
    (same : ∀ enabled state, view (Maskable.withInterrupts enabled state) = view state) :
    (guard.drop : Operation State Unit).Passive view := by
  rcases guard with ⟨_ | _⟩
  · exact passive_pure
  · exact passive_bind (passive_signal (by simp)) fun _ => passive_modify (same true)

theorem passive_masked
    (same : ∀ enabled state, view (Maskable.withInterrupts enabled state) = view state)
    (passive : action.Passive view) : (masked action).Passive view := by
  refine passive_bind (passive_acquire same) fun guard => ?_
  refine passive_bind passive fun value => ?_
  exact passive_bind (passive_drop guard same) fun _ => passive_pure

/-- Masking loads nothing, so it makes no difference if the flag makes none. -/
theorem leads_masked {ends : Value → State → Option Directory → Prop}
    (led : ∀ start, action.Leads start root ends)
    (same : ∀ enabled value state loaded, ends value state loaded →
      ends value (Maskable.withInterrupts enabled state) loaded) :
    (masked action).Leads before root ends := by
  have acquires : (Guard.acquire : Operation State Guard).Passive fun _ => () :=
    passive_acquire fun _ _ => rfl
  have acquired : (Guard.acquire : Operation State Guard).Leads before root
      fun _ _ loaded => loaded = root := acquires.leads fun _ _ _ _ => rfl
  refine leads_bind acquired fun guard between loaded isRoot => ?_
  subst isRoot
  refine leads_bind (led between) fun value state loaded holds => ?_
  have drops : (guard.drop : Operation State Unit).Passive fun _ => () :=
    passive_drop guard fun _ _ => rfl
  have dropped : (guard.drop : Operation State Unit).Leads state loaded fun _ => ends value := by
    refine drops.leads fun _ after run _ => ?_
    rw [yields_drop.mp run]
    split
    · exact same true value state loaded holds
    · exact holds
  refine leads_bind dropped fun _ after loaded ended => ?_
  have stays : (pure value : Operation State Value).Passive fun _ => () := passive_pure
  refine stays.leads fun _ final run _ => ?_
  rcases yields_pure.mp run with ⟨rfl, rfl⟩
  exact ended

end Masking

end Rules

end Operation

namespace Fallible

variable {State Cause Other Value Result View : Type}

/-- The operation loads no address space, and what is looked at of the state stays as it is. -/
def Passive (action : Fallible State Cause Value) (view : State → View) : Prop :=
  Operation.Passive action view

section Rules

variable {action first : Fallible State Cause Value} {next : Value → Fallible State Cause Result}
  {view : State → View}

theorem passive_pure {value : Value} : Passive (pure value : Fallible State Cause Value) view :=
  Operation.passive_pure

theorem passive_throw {cause : Cause} : Passive (throw cause : Fallible State Cause Value) view :=
  Operation.passive_pure

theorem passive_bind (begun : first.Passive view) (ended : ∀ value, (next value).Passive view) :
    Passive (first >>= next) view := by
  refine Operation.passive_bind begun fun reply => ?_
  cases reply with
  | error cause => exact Operation.passive_pure
  | ok value => exact ended value

theorem passive_lift {action : Operation State Value} (passive : action.Passive view) :
    Passive (liftM action : Fallible State Cause Value) view :=
  Operation.passive_map passive _

theorem passive_get : Passive (get : Fallible State Cause State) view :=
  passive_lift Operation.passive_get

theorem passive_log {notice : Notice} :
    Passive (log notice : Fallible State Cause Unit) view :=
  passive_lift Operation.passive_log

/-- If the operation, begun in the state with an address space loaded, is not refused, it ends as
told, given what is loaded then. -/
def Leads (action : Fallible State Cause Value) (before : State) (root : Option Directory)
    (ends : Value → State → Option Directory → Prop) : Prop :=
  Operation.Leads action before root fun reply after loaded =>
    ∀ value, reply = .ok value → ends value after loaded

theorem leads_bind {before : State} {root : Option Directory}
    {ends : Result → State → Option Directory → Prop}
    {mid : Value → State → Option Directory → Prop} (begun : first.Leads before root mid)
    (ended : ∀ value between loaded, mid value between loaded →
      (next value).Leads between loaded ends) : Leads (first >>= next) before root ends := by
  refine Operation.leads_bind begun fun reply between loaded holds => ?_
  cases reply with
  | error cause =>
      intro reply after effects run value isOk
      have stopped := Operation.yields_pure.mp ⟨effects, run⟩
      rw [stopped.1] at isOk
      cases isOk
  | ok value => exact ended value between loaded (holds value rfl)

/-- An operation before which nothing is known of what is loaded. -/
theorem leads_after {before : State} {root : Option Directory}
    {ends : Result → State → Option Directory → Prop}
    (ended : ∀ value between loaded, (next value).Leads between loaded ends) :
    Leads (first >>= next) before root ends := by
  have anything : first.Leads before root fun _ _ _ => True := fun _ _ _ _ _ _ => trivial
  exact leads_bind anything fun value between loaded _ => ended value between loaded

theorem leads_lift {action : Operation State Value} {before : State} {root : Option Directory}
    {ends : Value → State → Option Directory → Prop} (led : action.Leads before root ends) :
    Leads (liftM action : Fallible State Cause Value) before root ends := by
  refine Operation.leads_map fun value after effects run reply isOk => ?_
  cases isOk
  exact led value after effects run

theorem Passive.leads {before : State} {root : Option Directory} (passive : action.Passive view)
    {ends : Value → State → Option Directory → Prop}
    (comes : ∀ value after, view after = view before → ends value after root) :
    action.Leads before root ends :=
  Operation.Passive.leads passive fun _ after _ same value _ => comes value after same

theorem passive_mapCause {change : Cause → Other} (passive : action.Passive view) :
    (mapCause change action).Passive view :=
  Operation.passive_map passive _

end Rules

end Fallible

end KernelCore
