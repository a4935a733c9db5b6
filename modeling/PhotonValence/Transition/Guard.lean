import PhotonValence.Transition.Steps

namespace transition

/-- The guard `ok` marks exactly the steps that keep a property: runs that
stay within it satisfy the property in every state they reach, and a step
taken outside it can be continued to a state that violates the property. The
guard `base` delimits the runs both statements are about. -/
structure ExactGuard {State Action : Type*} (step : State → Action → Option State)
    (base ok : State → Action → Prop) (start : State) (Property : State → Prop) : Prop where
  keeps : ∀ finish, Steps step (fun state action => base state action ∧ ok state action) start finish →
    Property finish
  needed : ∀ before action after, Steps step base start before → base before action →
    ¬ ok before action → step before action = some after →
    ∃ finish, Steps step base after finish ∧ ¬ Property finish

end transition
