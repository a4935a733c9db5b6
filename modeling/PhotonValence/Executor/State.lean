import PhotonValence.Executor.Group
import PhotonValence.Handler.Registry
import PhotonValence.Transition.Steps

open photon_backend transition

namespace photon_valence_identity.executor

/-- What a dispatch was spawned for: its group, the pulled event and the
descriptor, by their positions in the group, and its arguments. -/
structure Spawn (Value : Type) where
  group : Nat
  occurrence : Nat
  entry : Nat
  args : DispatchArgs Value

/-- A dispatch task and its control point. -/
structure DispatchTask (Value Valence : Type) extends Spawn Value where
  pc : Pc Valence

/-- The state of a running executor: the keys `start_executor` has still to
spawn a subscription task for, whether the handle was aborted or dropped, the
subscription tasks, the detached dispatch tasks, the free worker permits, and
the effects the dispatch tasks have had, oldest first. -/
structure State (Value Valence : Type) where
  unspawned : List TopicKey
  permits : Nat
  aborted : Bool := false
  groups : List (GroupTask Value) := []
  tasks : List (DispatchTask Value Valence) := []
  trace : List (Nat × Effect Value Valence) := []

/-- What `start_executor` is given. `keys` is the order in which the hash index
yields the subscription keys. -/
structure Executor (Value Actor Valence : Type) extends DispatchEnv Value Actor Valence where
  registry : HandlerRegistry
  keys : List TopicKey
  keys_perm : keys.Perm registry.topic_subscription_keys
  worker_pool : Nat

/-- A step of the system: an iteration of the loop of `start_executor`, a turn
of a subscription or dispatch task, `ExecutorHandle::abort` or the drop of the
handle, or the cancellation of a subscription task after that. -/
inductive Action (Value : Type) where
  | spawn_group
  | group (g : Nat) (turn : GroupTurn Value)
  | dispatch (i : Nat) (turn : Turn)
  | abort
  | cancel (g : Nat)

/-- The free permits after a turn: `pool.acquire` takes one and waits while
there is none; the permit a task holds is dropped when the task ends. -/
def permits_after {Valence : Type} (permits : Nat) (before after : Pc Valence) : Option Nat :=
  match before with
  | .acquire => if permits = 0 then none else some (permits - 1)
  | _ => some (if after.ended then permits + 1 else permits)

namespace Executor

def start {Value Actor Valence : Type} (self : Executor Value Actor Valence) : State Value Valence where
  unspawned := self.keys
  permits := self.worker_pool

/-- A subscription task is cancelled at an await: in the checkpoint lookups or
while it waits for its stream. -/
def step {Value Actor Valence : Type} (self : Executor Value Actor Valence) (s : State Value Valence) :
    Action Value → Option (State Value Valence)
  | .spawn_group =>
    match s.unspawned with
    | [] => none
    | key :: rest =>
      let handlers := self.registry.handlers_for_topic_key key.1 key.2
      if handlers.isEmpty then some { s with unspawned := rest }
      else some { s with
        unspawned := rest
        groups := s.groups ++ [{ topic_name := key.1, topic_key_filter := key.2, handlers }] }
  | .group g turn =>
    match s.groups[g]? with
    | none => none
    | some group =>
      match group_step group turn with
      | none => none
      | some (group', spawned) => some { s with
          groups := s.groups.set g group'
          tasks := s.tasks ++ (spawned.map fun dispatch =>
            ⟨⟨g, group.rounds.length, dispatch.1, dispatch.2⟩, .acquire⟩).toList }
  | .dispatch i turn =>
    match s.tasks[i]? with
    | none => none
    | some task =>
      match dispatch_step self.toDispatchEnv task.args task.pc turn with
      | none => none
      | some (pc', effects) =>
        match permits_after s.permits task.pc pc' with
        | none => none
        | some permits => some { s with
            permits
            tasks := s.tasks.set i { task with pc := pc' }
            trace := s.trace ++ effects.map (i, ·) }
  | .abort => if s.unspawned.isEmpty then some { s with aborted := true } else none
  | .cancel g =>
    match s.aborted, s.groups[g]? with
    | true, some group =>
      match group.pc with
      | .resuming | .polling => some { s with groups := s.groups.set g { group with pc := .cancelled } }
      | _ => none
    | _, _ => none

/-- The steps that are taken, one constructor for each way. -/
inductive Transition {Value Actor Valence : Type} (self : Executor Value Actor Valence)
    (s : State Value Valence) : Action Value → State Value Valence → Prop where
  | skip_group {key : TopicKey} {rest : List TopicKey} (hkeys : s.unspawned = key :: rest)
      (hempty : self.registry.handlers_for_topic_key key.1 key.2 = []) :
      Transition self s .spawn_group { s with unspawned := rest }
  | spawn_group {key : TopicKey} {rest : List TopicKey} (hkeys : s.unspawned = key :: rest)
      (hsome : self.registry.handlers_for_topic_key key.1 key.2 ≠ []) :
      Transition self s .spawn_group { s with
        unspawned := rest
        groups := s.groups ++ [{
          topic_name := key.1
          topic_key_filter := key.2
          handlers := self.registry.handlers_for_topic_key key.1 key.2 }] }
  | group {g : Nat} {turn : GroupTurn Value} {group group' : GroupTask Value}
      {spawned : Option (Nat × DispatchArgs Value)} (hgroup : s.groups[g]? = some group)
      (hmoves : GroupMoves group turn group' spawned) :
      Transition self s (.group g turn) { s with
        groups := s.groups.set g group'
        tasks := s.tasks ++ (spawned.map fun dispatch =>
          (⟨⟨g, group.rounds.length, dispatch.1, dispatch.2⟩, .acquire⟩ : DispatchTask Value Valence)).toList }
  | dispatch {i : Nat} {turn : Turn} {task : DispatchTask Value Valence} {pc' : Pc Valence}
      {effects : List (Effect Value Valence)} {permits : Nat} (htask : s.tasks[i]? = some task)
      (hmoves : Moves self.toDispatchEnv task.args task.pc turn pc' effects)
      (hpermits : permits_after s.permits task.pc pc' = some permits) :
      Transition self s (.dispatch i turn) { s with
        permits
        tasks := s.tasks.set i { task with pc := pc' }
        trace := s.trace ++ effects.map (i, ·) }
  | abort (hreturned : s.unspawned = []) : Transition self s .abort { s with aborted := true }
  | cancel {g : Nat} {group : GroupTask Value} (haborted : s.aborted = true)
      (hgroup : s.groups[g]? = some group) (hawaits : group.pc = .resuming ∨ group.pc = .polling) :
      Transition self s (.cancel g) { s with groups := s.groups.set g { group with pc := .cancelled } }

/-- Inversion of a step: everything a step can do, with its guards. -/
theorem transition_of_step {Value Actor Valence : Type} {self : Executor Value Actor Valence}
    {s s' : State Value Valence} {action : Action Value} (hstep : self.step s action = some s') :
    Transition self s action s' := by
  cases action with
  | spawn_group =>
    simp only [step] at hstep
    split at hstep
    · cases hstep
    · rename_i key rest hkeys
      split at hstep
      · rename_i hempty
        cases hstep
        exact .skip_group hkeys (List.isEmpty_iff.mp hempty)
      · rename_i hsome
        cases hstep
        exact .spawn_group hkeys fun hempty => hsome (List.isEmpty_iff.mpr hempty)
  | group g turn =>
    simp only [step] at hstep
    split at hstep
    · cases hstep
    · rename_i group hgroup
      split at hstep
      · cases hstep
      · rename_i group' spawned hturn
        cases hstep
        exact .group hgroup (moves_of_group_step hturn)
  | dispatch i turn =>
    simp only [step] at hstep
    split at hstep
    · cases hstep
    · rename_i task htask
      split at hstep
      · cases hstep
      · rename_i pc' effects hturn
        split at hstep
        · cases hstep
        · rename_i permits hpermits
          cases hstep
          exact .dispatch htask (moves_of_dispatch_step hturn) hpermits
  | abort =>
    simp only [step] at hstep
    split at hstep
    · rename_i hreturned
      cases hstep
      exact .abort (List.isEmpty_iff.mp hreturned)
    · cases hstep
  | cancel g =>
    simp only [step] at hstep
    split at hstep
    · rename_i group haborted hgroup
      split at hstep
      · rename_i hpc
        cases hstep
        exact .cancel haborted hgroup (.inl hpc)
      · rename_i hpc
        cases hstep
        exact .cancel haborted hgroup (.inr hpc)
      · cases hstep
    · cases hstep

/-- A turn of a dispatch task is a step of the system as soon as the permits
allow it. -/
theorem step_dispatch {Value Actor Valence : Type} {self : Executor Value Actor Valence}
    {s : State Value Valence} {i : Nat} {turn : Turn} {task : DispatchTask Value Valence}
    {pc' : Pc Valence} {effects : List (Effect Value Valence)} {permits : Nat}
    (htask : s.tasks[i]? = some task)
    (hturn : dispatch_step self.toDispatchEnv task.args task.pc turn = some (pc', effects))
    (hpermits : permits_after s.permits task.pc pc' = some permits) :
    self.step s (.dispatch i turn) = some { s with
      permits
      tasks := s.tasks.set i { task with pc := pc' }
      trace := s.trace ++ effects.map (i, ·) } := by
  simp only [step, htask, hturn, hpermits]

/-- Every listed step is one that is taken. -/
theorem Transition.step_eq {Value Actor Valence : Type} {self : Executor Value Actor Valence}
    {s s' : State Value Valence} {action : Action Value} (htransition : self.Transition s action s') :
    self.step s action = some s' := by
  cases htransition with
  | skip_group hkeys hempty => simp only [step, hkeys, hempty, List.isEmpty_nil, if_true]
  | spawn_group hkeys hsome =>
    have hfull : (self.registry.handlers_for_topic_key _ _).isEmpty = false := List.isEmpty_eq_false_iff.mpr hsome
    simp only [step, hkeys, hfull, Bool.false_eq_true, if_false]
  | group hgroup hmoves => simp only [step, hgroup, hmoves.step_eq]
  | dispatch htask hmoves hpermits => exact step_dispatch htask hmoves.step_eq hpermits
  | abort hreturned => simp only [step, hreturned, List.isEmpty_nil, if_true]
  | cancel haborted hgroup hawaits => obtain hpc | hpc := hawaits <;> simp only [step, haborted, hgroup, hpc]

/-- The states a run of the executor reaches. -/
def Reachable {Value Actor Valence : Type} (self : Executor Value Actor Valence)
    (ok : State Value Valence → Action Value → Prop) (s : State Value Valence) : Prop :=
  Steps self.step ok self.start s

end Executor

/-- The effects of one dispatch task, oldest first. -/
def State.log {Value Valence : Type} (s : State Value Valence) (i : Nat) : List (Effect Value Valence) :=
  (s.trace.filter fun entry => entry.1 = i).map Prod.snd

end photon_valence_identity.executor
