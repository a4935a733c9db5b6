import PhotonValence.Executor.Batch
import PhotonValence.Executor.Deployment
import PhotonValence.Executor.LinkOrder
import PhotonValence.Executor.Work

open photon_backend valence register transition slots

namespace photon_valence_identity.executor

/-- What a process leaves to its surroundings, the schedule apart: what a stream
that is opened for a key at a resume point hands out in all, what the lookups
answer, and what the handlers and the services answer to a dispatch. -/
structure Surroundings (Value : Type) where
  streams : TopicKey → Option Int → List (Event Value)
  get_checkpoint_seq : String → String → Option String → CheckpointAnswer
  answers : DispatchArgs Value → DispatchAnswers

instance (answers : DispatchAnswers) (turn : Turn) : Decidable (turn.Gets answers) :=
  match turn with
  | .returned result => inferInstanceAs (Decidable (result = answers.handler))
  | .dlq_record stored => inferInstanceAs (Decidable (stored = answers.dlq))
  | .recorded ok => inferInstanceAs (Decidable (ok = answers.coalescer))
  | .acquire | .gate | .build | .invoke | .coalescer_record => instDecidableTrue

namespace Surroundings

/-- The steps of a process in these surroundings. Its handle is kept. -/
def Allow {Value Valence : Type} (self : Surroundings Value) (s : State Value Valence) : Action Value → Prop
  | .group g (.lookup answer) => ∀ group ∈ s.groups[g]?, ∀ h ∈ group.handlers[group.answers.length]?,
    ∀ slot ∈ read_slot h, answer = self.get_checkpoint_seq slot.1 slot.2.1 slot.2.2
  | .group g (.next (some (.ok ev))) => ∀ group ∈ s.groups[g]?,
    (self.streams group.key group.after_seq)[group.pulled.length]? = some ev
  | .dispatch i turn => ∀ task ∈ s.tasks[i]?, turn.Gets (self.answers task.args)
  | .abort => False
  | _ => True

instance {Value Valence : Type} [DecidableEq Value] (self : Surroundings Value) (s : State Value Valence)
    (action : Action Value) : Decidable (self.Allow s action) :=
  match action with
  | .group g (.lookup answer) => inferInstanceAs (Decidable (∀ group ∈ s.groups[g]?,
      ∀ h ∈ group.handlers[group.answers.length]?, ∀ slot ∈ read_slot h,
        answer = self.get_checkpoint_seq slot.1 slot.2.1 slot.2.2))
  | .group g (.next (some (.ok ev))) => inferInstanceAs (Decidable (∀ group ∈ s.groups[g]?,
      (self.streams group.key group.after_seq)[group.pulled.length]? = some ev))
  | .dispatch i turn => inferInstanceAs (Decidable (∀ task ∈ s.tasks[i]?, turn.Gets (self.answers task.args)))
  | .abort => instDecidableFalse
  | .group _ (.next none) | .group _ (.next (some (.error _))) => instDecidableTrue
  | .group _ .subscribe | .group _ .spawn | .spawn_group | .cancel _ => instDecidableTrue

/-- Every group has pulled all that its stream hands out. -/
def Exhausted {Value Valence : Type} (self : Surroundings Value) (s : State Value Valence) : Prop :=
  ∀ group ∈ s.groups, (self.streams group.key group.after_seq).length ≤ group.pulled.length

/-- The stream of the group of a key, opened where
`initial_subscription_after_seq` says. -/
def stream {Value : Type} (self : Surroundings Value) (handlers : List HandlerDescriptor) (key : TopicKey) :
    List (Event Value) :=
  self.streams key (initial_subscription_after_seq self.get_checkpoint_seq key.1 key.2
    (handlers.filter fun h => h.topicKey = key))

theorem Allow.not_abort {Value Valence : Type} {self : Surroundings Value} {s : State Value Valence}
    {action : Action Value} (hallow : self.Allow s action) : action ≠ .abort := by
  rintro rfl
  exact hallow

end Surroundings

namespace Surroundings

section

variable {Value Actor Valence : Type} {self : Surroundings Value} {executor : Executor Value Actor Valence}
  {s : State Value Valence}

/-- The handle is kept, so no subscription task is cancelled. -/
theorem none_cancelled (hrun : executor.Reachable self.Allow s) :
    s.aborted = false ∧ ∀ (g : Nat) (group : GroupTask Value), s.groups[g]? = some group → group.pc ≠ .cancelled := by
  apply Steps.invariant hrun
  · rintro before action after ⟨hkept, hnone⟩ hallow hstep
    have htransition := Executor.transition_of_step hstep
    refine ⟨(htransition.aborted_eq hallow.not_abort).trans hkept, fun g group' hgroup' => ?_⟩
    cases htransition.group_change hgroup' with
    | stays hgroup => exact hnone g group' hgroup
    | fresh hpc => simp [hpc]
    | cancelled _ haction =>
      subst haction
      cases htransition with
      | cancel haborted =>
        rw [hkept] at haborted
        cases haborted
    | moves hgroup _ hmoves =>
      cases hmoves with
      | lookup _ hpc | stream_error hpc => simp [hpc]
      | _ => nofun
  · exact ⟨rfl, by simp [Executor.start]⟩

/-- The lookups of a run in the surroundings get their answers. -/
theorem looked_up (hrun : executor.Reachable self.Allow s) {g : Nat} {group : GroupTask Value}
    (hgroup : s.groups[g]? = some group) (hpast : group.pc ≠ .resuming) :
    group.LookedUp self.get_checkpoint_seq := by
  have hanswered : s.Answered fun slot answer => answer = self.get_checkpoint_seq slot.1 slot.2.1 slot.2.2 := by
    apply Steps.invariant hrun
    · intro before action after hbefore hallow hstep
      refine hbefore.step hstep fun g answer haction => ?_
      subst haction
      exact hallow
    · exact State.answered_start executor _
  constructor
  · obtain ⟨hpc | hpc, _⟩ | ⟨_, hover⟩ := hrun.looked_up g group hgroup
    · exact absurd hpc hpast
    · exact absurd hpc ((none_cancelled hrun).2 g group hgroup)
    · exact hover
  · intro j h answer hj hanswer hmode name hname
    obtain ⟨htopic, hfilter⟩ := hrun.sound.keyed (List.mem_of_getElem? hgroup) h (List.mem_of_getElem? hj)
    have hslot : read_slot h = some (name, group.topic_name, group.topic_key_filter) :=
      read_slot_eq_some_iff.mpr ⟨hmode, hname, htopic, hfilter⟩
    exact hanswered g group hgroup j h answer hj hanswer _ hslot

/-- Event by event, a subscription task pulls what its stream hands out. -/
theorem pulls_stream (hrun : executor.Reachable self.Allow s) :
    ∀ (g : Nat) (group : GroupTask Value), s.groups[g]? = some group →
      ∀ (o : Nat) (ev : Event Value), group.pulled[o]? = some ev →
        (self.streams group.key group.after_seq)[(group.pulled.take o).length]? = some ev := by
  apply Steps.invariant_along hrun
  · intro before action after hbefore hpulls hallow hstep
    refine (Executor.transition_of_step hstep).lawful (fun key after_seq pulled ev =>
      (self.streams key after_seq)[pulled.length]? = some ev) (Executor.Reachable.resuming_pulled hbefore)
      (fun g ev haction => ?_) hpulls
    subst haction
    exact hallow
  · simp [Executor.start]

/-- A group that has pulled its whole stream has pulled what the surroundings
make of it. -/
theorem pulled_eq (hrun : executor.Reachable self.Allow s) (hexhausted : self.Exhausted s) {g : Nat}
    {group : GroupTask Value} (hgroup : s.groups[g]? = some group) (hpast : group.pc ≠ .resuming) :
    group.pulled = self.stream executor.registry.iter group.key := by
  have hresumed := hrun.resume_point_eq hgroup (looked_up hrun hgroup hpast)
  rw [HandlerRegistry.handlers_for_topic_key_eq] at hresumed
  have hstream : self.stream executor.registry.iter group.key = self.streams group.key group.after_seq := by
    rw [stream, hresumed]
    rfl
  rw [hstream]
  refine List.ext_getElem? fun o => ?_
  obtain hlt | hle := Nat.lt_or_ge o group.pulled.length
  · have hpth := pulls_stream hrun g group hgroup o _ (List.getElem?_eq_getElem hlt)
    rw [List.length_take_of_le (Nat.le_of_lt hlt)] at hpth
    rw [List.getElem?_eq_getElem hlt, hpth]
  · have hlength := hexhausted group (List.mem_of_getElem? hgroup)
    rw [List.getElem?_eq_none hle, List.getElem?_eq_none (hlength.trans hle)]

end

end Surroundings

end photon_valence_identity.executor
