import PhotonValence.Transition.Steps

namespace transition

/-- A potential that no step lowers and every counted step raises bounds how
often a run can take the counted steps. -/
theorem execute_countP_add_le {State Action : Type*} {step : State → Action → Option State}
    {potential : State → Nat} {counted : Action → Bool}
    (hraises : ∀ before action after, step before action = some after →
      potential before + (if counted action then 1 else 0) ≤ potential after)
    (actions : List Action) {start finish : State} (hexecute : execute step start actions = some finish) :
    potential start + actions.countP counted ≤ potential finish := by
  induction actions generalizing start with
  | nil =>
    cases hexecute
    exact Nat.le_refl _
  | cons action rest ih =>
    obtain ⟨next, hstep, hfinish⟩ := Option.bind_eq_some_iff.mp hexecute
    have hfirst := hraises start action next hstep
    have hrest := ih hfinish
    rw [List.countP_cons]
    omega

/-- Steps that use up fuel, and steps that bring some: a run takes no more of
the first than it starts with fuel for, or is brought fuel for on the way. -/
theorem execute_countP_le_fuel {State Action : Type*} {step : State → Action → Option State} {Inv : State → Prop}
    {fuel : State → Nat} {burns brings : Action → Bool} {load : Nat}
    (hfuel : ∀ before action after, Inv before → step before action = some after → Inv after ∧
      fuel after + (if burns action then 1 else 0) ≤ fuel before + (if brings action then load else 0))
    (actions : List Action) {start finish : State} (hstart : Inv start)
    (hexecute : execute step start actions = some finish) :
    fuel finish + actions.countP burns ≤ fuel start + load * actions.countP brings := by
  induction actions generalizing start with
  | nil =>
    cases hexecute
    exact Nat.le_refl _
  | cons action rest ih =>
    obtain ⟨next, hstep, hfinish⟩ := Option.bind_eq_some_iff.mp hexecute
    obtain ⟨hnext, hfirst⟩ := hfuel start action next hstart hstep
    have hrest := ih hnext hfinish
    have hload : load * (if brings action then 1 else 0) = if brings action then load else 0 := by
      split
      · exact Nat.mul_one load
      · exact Nat.mul_zero load
    rw [List.countP_cons, List.countP_cons, Nat.mul_add, hload]
    omega

/-- Where a step with less fuel after it can be taken unless everything is at
rest, some run comes to rest. -/
theorem exists_at_rest {State Action : Type*} {step : State → Action → Option State}
    {ok : State → Action → Prop} {Inv Rest : State → Prop} {fuel : State → Nat}
    (hgoes : ∀ state, Inv state → ¬ Rest state → ∃ action after, ok state action ∧
      step state action = some after ∧ Inv after ∧ fuel after < fuel state)
    {start : State} (hstart : Inv start) : ∃ finish, Steps step ok start finish ∧ Inv finish ∧ Rest finish := by
  induction hfuel : fuel start using Nat.strongRecOn generalizing start with
  | ind amount ih =>
    by_cases hrest : Rest start
    · exact ⟨start, .refl start, hstart, hrest⟩
    · obtain ⟨action, next, hok, hstep, hnext, hless⟩ := hgoes start hstart hrest
      obtain ⟨finish, hrun, hfinish, hrest⟩ := ih _ (hfuel ▸ hless) hnext rfl
      exact ⟨finish, (Steps.single hok hstep).trans hrun, hfinish, hrest⟩

end transition
