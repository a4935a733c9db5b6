import Mathlib.Logic.Relation

namespace transition

/-- Runs of a partial transition function all of whose steps are admitted by
`ok`, judged on the state before the step and the action taken. -/
inductive Steps {State Action : Type*} (step : State → Action → Option State)
    (ok : State → Action → Prop) : State → State → Prop where
  | refl (start : State) : Steps step ok start start
  | tail {start before after : State} {action : Action}
      (run : Steps step ok start before) (hok : ok before action)
      (hstep : step before action = some after) : Steps step ok start after

/-- The unrestricted guard: runs within it are all runs. -/
def anyStep {State Action : Type*} : State → Action → Prop := fun _ _ => True

theorem Steps.single {State Action : Type*} {step : State → Action → Option State}
    {ok : State → Action → Prop} {before after : State} {action : Action}
    (hok : ok before action) (hstep : step before action = some after) :
    Steps step ok before after :=
  .tail (.refl before) hok hstep

theorem Steps.trans {State Action : Type*} {step : State → Action → Option State}
    {ok : State → Action → Prop} {first second third : State}
    (hfirst : Steps step ok first second) (hsecond : Steps step ok second third) :
    Steps step ok first third := by
  induction hsecond with
  | refl => exact hfirst
  | tail _ hok hstep ih => exact .tail ih hok hstep

/-- A run within a guard is a run within every weaker one. -/
theorem Steps.weaken {State Action : Type*} {step : State → Action → Option State}
    {ok weak : State → Action → Prop} {start finish : State} (hrun : Steps step ok start finish)
    (hweak : ∀ state action, ok state action → weak state action) : Steps step weak start finish := by
  induction hrun with
  | refl => exact .refl _
  | tail _ hok hstep ih => exact .tail ih (hweak _ _ hok) hstep

/-- A property that every admitted step preserves, given the run that has led to
it, holds throughout a run that starts in it. -/
theorem Steps.invariant_along {State Action : Type*} {step : State → Action → Option State}
    {ok : State → Action → Prop} {Inv : State → Prop} {start finish : State}
    (hrun : Steps step ok start finish)
    (hpreserves : ∀ before action after, Steps step ok start before → Inv before → ok before action →
      step before action = some after → Inv after)
    (hstart : Inv start) : Inv finish := by
  induction hrun with
  | refl => exact hstart
  | tail hbefore hok hstep ih => exact hpreserves _ _ _ hbefore ih hok hstep

/-- A property preserved by every admitted step holds throughout a run that
starts in it. -/
theorem Steps.invariant {State Action : Type*} {step : State → Action → Option State}
    {ok : State → Action → Prop} {Inv : State → Prop} {start finish : State}
    (hrun : Steps step ok start finish)
    (hpreserves : ∀ before action after, Inv before → ok before action →
      step before action = some after → Inv after)
    (hstart : Inv start) : Inv finish :=
  hrun.invariant_along (fun before action after _ => hpreserves before action after) hstart

/-- A reflexive and transitive relation kept by single steps relates the two
ends of a run. -/
theorem Steps.relates {State Action : Type*} {step : State → Action → Option State}
    {ok : State → Action → Prop} (Rel : State → State → Prop) {start finish : State}
    (hrun : Steps step ok start finish) (hrefl : ∀ state, Rel state state)
    (htrans : ∀ first second third, Rel first second → Rel second third → Rel first third)
    (hstep : ∀ before action after, ok before action → step before action = some after →
      Rel before after) : Rel start finish := by
  induction hrun with
  | refl => exact hrefl _
  | tail _ hok htaken ih => exact htrans _ _ _ ih (hstep _ _ _ hok htaken)

/-- A run within a guard that keeps an invariant is a run within every guard
that the invariant implies for the steps it takes. -/
theorem Steps.guarded {State Action : Type*} {step : State → Action → Option State}
    {ok implied : State → Action → Prop} {Inv : State → Prop} {start finish : State}
    (hrun : Steps step ok start finish)
    (hpreserves : ∀ before action after, Inv before → ok before action →
      step before action = some after → implied before action ∧ Inv after)
    (hstart : Inv start) : Steps step implied start finish ∧ Inv finish := by
  induction hrun with
  | refl => exact ⟨.refl _, hstart⟩
  | tail _ hok hstep ih =>
    obtain ⟨hrun, hinv⟩ := ih
    obtain ⟨himplied, hafter⟩ := hpreserves _ _ _ hinv hok hstep
    exact ⟨.tail hrun himplied hstep, hafter⟩

/-- Runs the actions of a list in order, failing at the first one that is not
enabled. -/
def execute {State Action : Type*} (step : State → Action → Option State) :
    State → List Action → Option State
  | state, [] => some state
  | state, action :: rest => (step state action).bind (execute step · rest)

theorem execute_concat {State Action : Type*} (step : State → Action → Option State) (start : State)
    (actions : List Action) (action : Action) :
    execute step start (actions ++ [action]) = (execute step start actions).bind (step · action) := by
  induction actions generalizing start with
  | nil => exact Option.bind_fun_some _
  | cons first rest ih =>
    simp only [List.cons_append, execute, Option.bind_assoc]
    exact congrArg _ (funext ih)

/-- Whether a guard holds at every action of a list executed from a state. -/
def Guarded {State Action : Type*} (step : State → Action → Option State)
    (ok : State → Action → Prop) : State → List Action → Prop
  | _, [] => True
  | state, action :: rest =>
    ok state action ∧ (step state action).elim True (Guarded step ok · rest)

/-- Whether a list of actions is admitted can be computed. -/
instance decidableGuarded {State Action : Type*} (step : State → Action → Option State)
    (ok : State → Action → Prop) [∀ state action, Decidable (ok state action)] :
    ∀ (state : State) (actions : List Action), Decidable (Guarded step ok state actions)
  | _, [] => instDecidableTrue
  | state, action :: rest =>
    have : Decidable ((step state action).elim True (Guarded step ok · rest)) :=
      match step state action with
      | none => instDecidableTrue
      | some next => decidableGuarded step ok next rest
    instDecidableAnd

theorem execute_steps {State Action : Type*} {step : State → Action → Option State}
    {ok : State → Action → Prop} (actions : List Action) {start finish : State}
    (hguarded : Guarded step ok start actions) (hexecute : execute step start actions = some finish) :
    Steps step ok start finish := by
  induction actions generalizing start with
  | nil =>
    cases hexecute
    exact .refl _
  | cons action rest ih =>
    obtain ⟨hok, hrest⟩ := hguarded
    obtain ⟨next, hstep, hfinish⟩ := Option.bind_eq_some_iff.mp hexecute
    rw [hstep] at hrest
    exact (Steps.single hok hstep).trans (ih hrest hfinish)

/-- A list of actions that are admitted in every state is a run. -/
theorem execute_steps_of_forall {State Action : Type*} {step : State → Action → Option State}
    {ok : State → Action → Prop} (actions : List Action) {start finish : State}
    (hok : ∀ action ∈ actions, ∀ state, ok state action) (hexecute : execute step start actions = some finish) :
    Steps step ok start finish := by
  induction actions generalizing start with
  | nil =>
    cases hexecute
    exact .refl _
  | cons action rest ih =>
    obtain ⟨next, hstep, hfinish⟩ := Option.bind_eq_some_iff.mp hexecute
    have hrest : ∀ action ∈ rest, ∀ state, ok state action :=
      fun other hother => hok other (List.mem_cons_of_mem _ hother)
    exact (Steps.single (hok action List.mem_cons_self start) hstep).trans (ih hrest hfinish)

theorem execute_anyStep {State Action : Type*} {step : State → Action → Option State}
    (actions : List Action) {start finish : State}
    (hexecute : execute step start actions = some finish) : Steps step anyStep start finish :=
  execute_steps_of_forall actions (fun _ _ _ => trivial) hexecute

end transition
