import PhotonValence.Executor.Sound

open photon_backend transition slots

namespace photon_valence_identity.executor

/-- The state with another number of free permits. -/
def State.with_permits {Value Valence : Type} (s : State Value Valence) (permits : Nat) : State Value Valence :=
  { s with permits }

/-- The number of permits that the dispatches hold. -/
def State.held {Value Valence : Type} (s : State Value Valence) : Nat :=
  s.tasks.countP fun task => task.pc.holds_permit

@[simp] theorem State.with_permits_permits {Value Valence : Type} (s : State Value Valence) (permits : Nat) :
    (s.with_permits permits).permits = permits := rfl

/-- Whatever is free, the state is one of an executor whose pool has just that
many permits more than are held. -/
theorem Sound.with_permits {Value Actor Valence : Type} {self : Executor Value Actor Valence}
    {s : State Value Valence} (hsound : Sound self s) (permits : Nat) :
    Sound { self with worker_pool := permits + s.held } (s.with_permits permits) where
  keys_eq := hsound.keys_eq
  handlers_eq := hsound.handlers_eq
  spawned_eq := hsound.spawned_eq
  owned := hsound.owned
  ledger := hsound.ledger
  logged := hsound.logged
  permits_eq := rfl

/-- Permits to spare are left as they are. -/
theorem permits_after_spare {Valence : Type} {permits permits' : Nat} {before after : Pc Valence}
    (hpermits : permits_after permits before after = some permits') (spare : Nat) :
    permits_after (permits + spare) before after = some (permits' + spare) := by
  unfold permits_after at *
  split at hpermits
  · split at hpermits
    · cases hpermits
    · rename_i hfree
      cases hpermits
      rw [if_neg (by omega), Option.some.injEq]
      omega
  · cases hpermits
    rw [Option.some.injEq]
    split <;> omega

namespace Executor

/-- What can be done with some permits can be done with more, and leaves the
others free. -/
theorem step_spare {Value Actor Valence : Type} {self : Executor Value Actor Valence}
    {s s' : State Value Valence} {action : Action Value} (hstep : self.step s action = some s') (spare : Nat) :
    self.step (s.with_permits (s.permits + spare)) action = some (s'.with_permits (s'.permits + spare)) := by
  apply Transition.step_eq
  cases transition_of_step hstep with
  | skip_group hkeys hempty => exact .skip_group hkeys hempty
  | spawn_group hkeys hsome => exact .spawn_group hkeys hsome
  | group hgroup hmoves => exact .group hgroup hmoves
  | dispatch htask hmoves hpermits => exact .dispatch htask hmoves (permits_after_spare hpermits spare)
  | abort hreturned => exact .abort hreturned
  | cancel haborted hgroup hawaits => exact .cancel haborted hgroup hawaits

end Executor

end photon_valence_identity.executor
