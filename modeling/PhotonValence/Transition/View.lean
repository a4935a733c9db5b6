import PhotonValence.Transition.Steps

namespace transition

/-- Actions that a view does not show can be left out of a run: the others lead
to the same view, when the view takes every step that is shown. -/
theorem execute_erase {State Action : Type*} {step : State → Action → Option State} {view : State → State}
    {silent : Action → Bool}
    (hsilent : ∀ before action after, silent action = true → step before action = some after →
      view after = view before)
    (hshown : ∀ before action after, silent action = false → step before action = some after →
      step (view before) action = some (view after))
    (actions : List Action) {start finish : State} (hexecute : execute step start actions = some finish) :
    execute step (view start) (actions.filter fun action => !silent action) = some (view finish) := by
  induction actions generalizing start with
  | nil =>
    cases hexecute
    rfl
  | cons action rest ih =>
    obtain ⟨next, hstep, hrest⟩ := Option.bind_eq_some_iff.mp hexecute
    have hlater := ih hrest
    cases hkind : silent action with
    | true =>
      rw [hsilent start action next hkind hstep] at hlater
      rwa [List.filter_cons_of_neg (by simp [hkind])]
    | false =>
      rw [List.filter_cons_of_pos (by simp [hkind])]
      exact Option.bind_eq_some_iff.mpr ⟨view next, hshown start action next hkind hstep, hlater⟩

/-- Where every step of one system is matched by a run of another, every run
is. -/
theorem Steps.matched {State Action State' Action' : Type*} {step : State → Action → Option State}
    {step' : State' → Action' → Option State'} {ok : State → Action → Prop} {ok' : State' → Action' → Prop}
    (Rel : State → State' → Prop) {start finish : State} {start' : State'} (hrun : Steps step ok start finish)
    (hmatches : ∀ before action after before', Rel before before' → ok before action →
      step before action = some after → ∃ after', Steps step' ok' before' after' ∧ Rel after after')
    (hstart : Rel start start') :
    ∃ finish', Steps step' ok' start' finish' ∧ Rel finish finish' := by
  induction hrun with
  | refl => exact ⟨start', .refl _, hstart⟩
  | tail _ hok hstep ih =>
    obtain ⟨before', hrun', hbefore⟩ := ih
    obtain ⟨after', htaken, hafter⟩ := hmatches _ _ _ _ hbefore hok hstep
    exact ⟨after', hrun'.trans htaken, hafter⟩

/-- What every step adds to a list, as long as an invariant holds, is collected
over a run in the order of its actions. -/
theorem execute_collects {State Action Part : Type*} {step : State → Action → Option State}
    {collected : State → List Part} {adds : Action → Option Part} (Inv : State → Prop)
    (hadds : ∀ before action after, Inv before → step before action = some after →
      Inv after ∧ collected after = collected before ++ (adds action).toList)
    (actions : List Action) {start finish : State} (hstart : Inv start)
    (hexecute : execute step start actions = some finish) :
    collected finish = collected start ++ actions.filterMap adds := by
  induction actions generalizing start with
  | nil =>
    cases hexecute
    exact (List.append_nil _).symm
  | cons action rest ih =>
    obtain ⟨next, hstep, hrest⟩ := Option.bind_eq_some_iff.mp hexecute
    obtain ⟨hnext, hadded⟩ := hadds start action next hstart hstep
    rw [ih hnext hrest, hadded, List.append_assoc]
    congr 1
    cases hadded : adds action <;> simp [hadded]

end transition
