import Mathlib.Data.List.Flatten
import PhotonValence.Executor.Inventory
import PhotonValence.Executor.Outcome
import PhotonValence.Executor.Store
import PhotonValence.Slots.Blocks

open photon_backend valence register transition slots

namespace photon_valence_identity.executor

/-- The handler and the services answer each dispatch as given, whenever it
gets its turns. -/
def AnsweredBy {Value Valence : Type} (answers : Spawn Value → DispatchAnswers) (s : State Value Valence) :
    Action Value → Prop
  | .dispatch i turn => ∀ task, s.tasks[i]? = some task → turn.Gets (answers task.toSpawn)
  | _ => True

/-- The dispatches of one event, to the handlers of its group that take it. -/
def event_spawns {Value : Type} (g occurrence : Nat) (handlers : List HandlerDescriptor) (ev : Event Value) :
    List (Spawn Value) :=
  (handlers.zipIdx.filter fun entry => entry.1.matches_event ev.topic_name ev.topic_key).map fun entry =>
    ⟨g, occurrence, entry.2, dispatch_args entry.1 ev⟩

/-- The dispatches of all events of a stream, one event after the other. -/
def stream_spawns {Value : Type} (g : Nat) (handlers : List HandlerDescriptor) (stream : List (Event Value)) :
    List (Spawn Value) :=
  stream.zipIdx.flatMap fun pulled => event_spawns g pulled.2 handlers pulled.1

/-- The dispatches of all groups, one group after the other. -/
def Executor.batch_spawns {Value Actor Valence : Type} (self : Executor Value Actor Valence)
    (streams : Nat → List (Event Value)) : List (Spawn Value) :=
  self.keys.zipIdx.flatMap fun key =>
    stream_spawns key.2 (self.registry.handlers_for_topic_key key.1.1 key.1.2) (streams key.2)

/-- The executor as a sequential program over finite streams: `dispatch_handler`
is called where `start_executor` spawns a task for it. -/
def Executor.batch {Value Actor Valence : Type} (self : Executor Value Actor Valence)
    (streams : Nat → List (Event Value)) (answers : Spawn Value → DispatchAnswers) : List (Effect Value Valence) :=
  (self.batch_spawns streams).flatMap fun spawn => dispatch_handler self.toDispatchEnv spawn.args (answers spawn)

/-- What each group has pulled from its stream. -/
def State.streams {Value Valence : Type} (s : State Value Valence) (g : Nat) : List (Event Value) :=
  (s.groups[g]?.map GroupTask.pulled).getD []

/-- All that was pulled has been dispatched to its end. -/
def State.AllHandled {Value Valence : Type} (s : State Value Valence) : Prop :=
  (∀ task ∈ s.tasks, task.pc.ended = true) ∧ ∀ group ∈ s.groups, group.current = []

/-- The dispatches of an event, as far as the loop has come, are the first of
all its dispatches. -/
theorem spawn_round_eq {Value : Type} (g occurrence : Nat) (handlers : List HandlerDescriptor) (ev : Event Value)
    (next : Nat) : spawn_round g occurrence handlers ev next =
      ((handlers.zipIdx.take next).filter fun entry => entry.1.matches_event ev.topic_name ev.topic_key).map
        fun entry => ⟨g, occurrence, entry.2, dispatch_args entry.1 ev⟩ := by
  induction next with
  | zero => rfl
  | succ next ih =>
    have hnext : handlers.zipIdx[next]? = handlers[next]?.map fun descriptor => (descriptor, next) := by
      simp [List.getElem?_zipIdx]
    rw [spawn_round, ih, List.take_add_one, hnext, List.filter_append, List.map_append]
    congr 1
    cases handlers[next]? with
    | none => rfl
    | some descriptor => cases hmatches : descriptor.matches_event ev.topic_name ev.topic_key <;> simp [hmatches]

theorem spawn_round_full {Value : Type} (g occurrence : Nat) (handlers : List HandlerDescriptor) (ev : Event Value) :
    spawn_round g occurrence handlers ev handlers.length = event_spawns g occurrence handlers ev := by
  rw [spawn_round_eq, List.take_of_length_le (by simp), event_spawns]

theorem spawn_round_sublist {Value : Type} (g occurrence : Nat) (handlers : List HandlerDescriptor) (ev : Event Value)
    (next : Nat) : (spawn_round g occurrence handlers ev next).Sublist (event_spawns g occurrence handlers ev) := by
  rw [spawn_round_eq, event_spawns]
  exact ((List.take_sublist next _).filter _).map _

theorem stream_spawns_append {Value : Type} (g : Nat) (handlers : List HandlerDescriptor)
    (rounds current : List (Event Value)) : stream_spawns g handlers (rounds ++ current) =
      stream_spawns g handlers rounds ++
        (current.zipIdx rounds.length).flatMap fun pulled => event_spawns g pulled.2 handlers pulled.1 := by
  rw [stream_spawns, stream_spawns, List.zipIdx_append, List.flatMap_append, Nat.zero_add]

/-- What a subscription task has spawned is part of the dispatches of what it
has pulled, and all of them when it has no event in hand. -/
theorem GroupTask.spawns_sublist {Value : Type} (group : GroupTask Value) (g : Nat) :
    (group.spawns g).Sublist (stream_spawns g group.handlers group.pulled) ∧
      (group.current = [] → group.spawns g = stream_spawns g group.handlers group.pulled) := by
  have hrounds : (group.rounds.zipIdx.flatMap fun pulled =>
      spawn_round g pulled.2 group.handlers pulled.1 group.handlers.length) =
        stream_spawns g group.handlers group.rounds := by
    simp only [spawn_round_full, stream_spawns]
  rw [GroupTask.spawns, hrounds, GroupTask.pulled, stream_spawns_append]
  cases hpc : group.pc with
  | dispatching ev next =>
    have hcurrent : group.current = [ev] := by simp [GroupTask.current, hpc]
    simp only [hcurrent, List.zipIdx_singleton, List.flatMap_singleton]
    exact ⟨(spawn_round_sublist _ _ _ _ next).append_left _, fun hnone => by cases hnone⟩
  | _ =>
    have hcurrent : group.current = [] := by simp [GroupTask.current, hpc]
    simp [hcurrent]

/-- A task is spawned without effects of its own. -/
theorem Sound.log_of_length_le {Value Actor Valence : Type} {self : Executor Value Actor Valence}
    {s : State Value Valence} (hsound : Sound self s) {i : Nat} (hle : s.tasks.length ≤ i) : s.log i = [] :=
  log_fresh hsound.logged hle

/-- The effects of the dispatches show the answers they got. -/
theorem Executor.Reachable.agrees {Value Actor Valence : Type} {self : Executor Value Actor Valence}
    {answers : Spawn Value → DispatchAnswers} {s : State Value Valence}
    (hreachable : self.Reachable (AnsweredBy answers) s) :
    ∀ (i : Nat) (task : DispatchTask Value Valence), s.tasks[i]? = some task →
      ∀ effect ∈ s.log i, effect.Agrees (answers task.toSpawn) := by
  apply Steps.invariant_along hreachable
  · intro before action after hbefore hagrees hok hstep
    cases transition_of_step hstep with
    | group =>
      intro i task htask
      obtain hold | ⟨hle, _⟩ := getElem?_append_cases htask
      · exact hagrees i task hold
      · have hnone : before.log i = [] := (Reachable.sound hbefore).log_of_length_le hle
        intro effect heffect
        rw [State.log] at hnone heffect
        rw [hnone] at heffect
        cases heffect
    | @dispatch j turn task pc' effects _ htask hmoves =>
      intro i other hother effect heffect
      obtain ⟨rfl, rfl⟩ | ⟨hne, hold⟩ := getElem?_set_cases hother
      · rw [State.log, log_append_self] at heffect
        obtain hpast | hnow := List.mem_append.mp heffect
        · exact hagrees i task htask effect hpast
        · exact hmoves.agrees (hok task htask) effect hnow
      · rw [State.log, log_append_ne _ hne] at heffect
        exact hagrees i other hold effect heffect
    | _ => exact hagrees
  · intro i task htask
    cases htask

namespace Sound

/-- The groups have spawned the dispatches of what they have pulled, possibly
without the last ones. -/
theorem spawns_sublist_batch {Value Actor Valence : Type} {self : Executor Value Actor Valence}
    {s : State Value Valence} (hsound : Sound self s) :
    (s.groups.zipIdx.flatMap fun group => group.1.spawns group.2).Sublist (self.batch_spawns s.streams) ∧
      ((∀ group ∈ s.groups, group.current = []) →
        (s.groups.zipIdx.flatMap fun group => group.1.spawns group.2) = self.batch_spawns s.streams) := by
  -- the keys without a group have no stream
  have hbatch : self.batch_spawns s.streams = s.groups.zipIdx.flatMap fun group =>
      stream_spawns group.2 group.1.handlers group.1.pulled := by
    have hlater : (s.unspawned.zipIdx s.groups.length).flatMap (fun key => stream_spawns key.2
        (self.registry.handlers_for_topic_key key.1.1 key.1.2) (s.streams key.2)) = [] := by
      apply List.flatMap_eq_nil_iff.mpr
      intro key hkey
      have hle := List.le_snd_of_mem_zipIdx hkey
      rw [State.streams, List.getElem?_eq_none hle]
      rfl
    rw [Executor.batch_spawns, ← hsound.keys_eq, List.zipIdx_append, List.flatMap_append, List.length_map, Nat.zero_add,
      hlater, List.append_nil, List.zipIdx_map, List.flatMap_map]
    apply List.flatMap_congr
    intro group hgroup
    have hget := List.mem_zipIdx_iff_getElem?.mp hgroup
    have hhandlers := hsound.handlers_eq group.1 (List.mem_of_getElem? hget)
    simp only [Prod.map, State.streams, hget, GroupTask.key, ← hhandlers, Option.map_some, Option.getD_some, id]
  rw [hbatch]
  constructor
  · exact List.Sublist.flatMap_right _ fun group _ => (group.1.spawns_sublist group.2).1
  · intro hnone
    apply List.flatMap_congr
    intro group hgroup
    have hget := List.mem_zipIdx_iff_getElem?.mp hgroup
    exact (group.1.spawns_sublist group.2).2 (hnone group.1 (List.mem_of_getElem? hget))

/-- The dispatch tasks are those the groups have spawned, in another order. -/
theorem tasks_perm_spawns {Value Actor Valence : Type} {self : Executor Value Actor Valence}
    {s : State Value Valence} (hsound : Sound self s) :
    (s.groups.zipIdx.flatMap fun group => group.1.spawns group.2).Perm (s.tasks.map DispatchTask.toSpawn) := by
  have hspawned : (List.range s.groups.zipIdx.length).flatMap s.spawned =
      s.groups.zipIdx.flatMap fun group => group.1.spawns group.2 := by
    refine flatMap_range_eq fun g group hgroup => ?_
    obtain ⟨group, hget, rfl⟩ := Option.map_eq_some_iff.mp (List.getElem?_zipIdx.symm.trans hgroup)
    rw [Nat.zero_add]
    exact hsound.spawned_eq g group hget
  rw [← hspawned, List.length_zipIdx]
  refine flatMap_filter_perm_self Spawn.group List.nodup_range fun spawn hspawn => ?_
  obtain ⟨task, htask, rfl⟩ := List.mem_map.mp hspawn
  exact List.mem_range.mpr (hsound.owned task htask)

/-- Put together dispatch by dispatch, the trace is part of the calls of
`dispatch_handler` with the answers the dispatches got. -/
theorem logs_sublist {Value Actor Valence : Type} {self : Executor Value Actor Valence}
    {s : State Value Valence} (hsound : Sound self s) {answers : Spawn Value → DispatchAnswers}
    (hagrees : ∀ (i : Nat) (task : DispatchTask Value Valence), s.tasks[i]? = some task →
      ∀ effect ∈ s.log i, effect.Agrees (answers task.toSpawn)) :
    ((List.range s.tasks.length).flatMap s.log).Sublist ((s.tasks.map DispatchTask.toSpawn).flatMap fun spawn =>
        dispatch_handler self.toDispatchEnv spawn.args (answers spawn)) ∧
      ((∀ task ∈ s.tasks, task.pc.ended = true) →
        (List.range s.tasks.length).flatMap s.log = (s.tasks.map DispatchTask.toSpawn).flatMap fun spawn =>
          dispatch_handler self.toDispatchEnv spawn.args (answers spawn)) := by
  rw [List.flatMap_map]
  constructor
  · refine flatMap_range_sublist (Nat.le_refl _) fun i task htask => ?_
    exact ((hsound.ledger i task htask).prefix_dispatch_handler (hagrees i task htask)).sublist
  · intro hended
    refine flatMap_range_eq fun i task htask => ?_
    exact (hsound.ledger i task htask).eq_dispatch_handler (hended task (List.mem_of_getElem? htask))
      (hagrees i task htask)

end Sound

/-- In every reachable state the effects so far are among those of the batch
over what was pulled. -/
theorem Executor.Reachable.trace_subperm {Value Actor Valence : Type} {self : Executor Value Actor Valence}
    {answers : Spawn Value → DispatchAnswers} {s : State Value Valence}
    (hreachable : self.Reachable (AnsweredBy answers) s) :
    (s.trace.map Prod.snd).Subperm (self.batch s.streams answers) := by
  have hsound : Sound self s := Executor.Reachable.sound hreachable
  have hlogs : ((List.range s.tasks.length).flatMap s.log).Perm (s.trace.map Prod.snd) :=
    flatMap_range_perm hsound.logged
  have hbegun := (hsound.logs_sublist hreachable.agrees).1
  have hcalls := hsound.tasks_perm_spawns.flatMap_right fun spawn =>
    dispatch_handler self.toDispatchEnv spawn.args (answers spawn)
  have hbatch := hsound.spawns_sublist_batch.1.flatMap fun spawn =>
    dispatch_handler self.toDispatchEnv spawn.args (answers spawn)
  exact hlogs.symm.subperm.trans (hbegun.subperm.trans (hcalls.symm.subperm.trans hbatch.subperm))

/-- Once all that was pulled is handled, they are all of them. -/
theorem Executor.Reachable.trace_perm {Value Actor Valence : Type} {self : Executor Value Actor Valence}
    {answers : Spawn Value → DispatchAnswers} {s : State Value Valence}
    (hreachable : self.Reachable (AnsweredBy answers) s) (hall : s.AllHandled) :
    (s.trace.map Prod.snd).Perm (self.batch s.streams answers) := by
  have hsound : Sound self s := Executor.Reachable.sound hreachable
  have hlogs : ((List.range s.tasks.length).flatMap s.log).Perm (s.trace.map Prod.snd) :=
    flatMap_range_perm hsound.logged
  have hended := (hsound.logs_sublist hreachable.agrees).2 hall.1
  have hcalls := hsound.tasks_perm_spawns.flatMap_right fun spawn =>
    dispatch_handler self.toDispatchEnv spawn.args (answers spawn)
  rw [hended] at hlogs
  rw [Executor.batch, ← hsound.spawns_sublist_batch.2 hall.2]
  exact hlogs.symm.trans hcalls.symm

/-- Where the effects are the same but for their order, so are the checkpoints
they leave. -/
theorem greatest_checkpoints_eq {Value Valence : Type} {s : State Value Valence} {effects : List (Effect Value Valence)}
    (hperm : (s.trace.map Prod.snd).Perm effects) (slot : Slot) :
    greatest s.checkpoints slot = greatest (effects.filterMap Effect.checkpoint) slot := by
  have hcheckpoints : s.checkpoints = (s.trace.map Prod.snd).filterMap Effect.checkpoint := by
    rw [State.checkpoints, List.filterMap_map]
    rfl
  rw [hcheckpoints]
  exact greatest_congr fun seq => (hperm.filterMap _).mem_iff

/-- The executor refines the sequential program, up to the order of the
effects, whatever the schedule and the size of the pool. In every reachable
state the effects so far are among those of the batch over what was pulled;
and once all that was pulled is handled, they are all of them and have left
the same checkpoints. -/
theorem executor_is_batch {Value Actor Valence : Type} {self : Executor Value Actor Valence}
    {answers : Spawn Value → DispatchAnswers} {s : State Value Valence}
    (hreachable : self.Reachable (AnsweredBy answers) s) :
    (s.trace.map Prod.snd).Subperm (self.batch s.streams answers) ∧
      (s.AllHandled → (s.trace.map Prod.snd).Perm (self.batch s.streams answers) ∧
        ∀ slot, greatest s.checkpoints slot =
          greatest ((self.batch s.streams answers).filterMap Effect.checkpoint) slot) := by
  refine ⟨hreachable.trace_subperm, fun hall => ?_⟩
  have hperm := hreachable.trace_perm hall
  exact ⟨hperm, greatest_checkpoints_eq hperm⟩

/-- Two events whose dispatches overtake each other. -/
def crossing : List (Action ActorJson) :=
  [.spawn_group, .group 0 (.lookup (.ok none)), .group 0 .subscribe,
    .group 0 (.next (some (.ok (orders_event none 1)))), .group 0 .spawn, .group 0 .spawn,
    .group 0 (.next (some (.ok (orders_event none 2)))), .group 0 .spawn, .group 0 .spawn,
    .dispatch 1 .acquire, .dispatch 1 .gate, .dispatch 0 .acquire, .dispatch 1 .build, .dispatch 1 .invoke,
    .dispatch 0 .gate, .dispatch 0 .build, .dispatch 1 (.returned .Ok), .dispatch 1 .coalescer_record,
    .dispatch 0 .invoke, .dispatch 0 (.returned .Ok), .dispatch 1 (.recorded true), .dispatch 0 .coalescer_record,
    .dispatch 0 (.recorded true)]

theorem executor_is_batch_crossing : ∃ s, execute billing_executor.step billing_executor.start crossing = some s ∧
    (s.trace.map Prod.snd).Perm (billing_executor.batch s.streams fun _ => ⟨.Ok, true, true⟩) ∧
    s.checkpoints.map Prod.snd = [2, 1] ∧
    ((billing_executor.batch s.streams fun _ => ⟨.Ok, true, true⟩).filterMap Effect.checkpoint).map Prod.snd = [1, 2] ∧
    greatest ((billing_executor.batch s.streams fun _ => ⟨.Ok, true, true⟩).filterMap Effect.checkpoint)
      ("billing", "orders", none) = some 2 := by
  obtain ⟨s, hexecute, hended, hcurrent, hrecorded, hbatch, hstored⟩ : ∃ s,
      execute billing_executor.step billing_executor.start crossing = some s ∧
      (s.tasks.all fun task => task.pc.ended) = true ∧ (s.groups.all fun group => group.current.isEmpty) = true ∧
      s.checkpoints.map Prod.snd = [2, 1] ∧
      ((billing_executor.batch s.streams fun _ => ⟨.Ok, true, true⟩).filterMap Effect.checkpoint).map Prod.snd =
        [1, 2] ∧ greatest s.checkpoints ("billing", "orders", none) = some 2 :=
    ⟨_, rfl, rfl, rfl, rfl, rfl, rfl⟩
  have hreachable : billing_executor.Reachable (AnsweredBy fun _ => ⟨.Ok, true, true⟩) s :=
    execute_steps_of_forall crossing (by simp [crossing, AnsweredBy, Turn.Gets]) hexecute
  have hall : s.AllHandled := by
    refine ⟨List.all_eq_true.mp hended, fun group hgroup => ?_⟩
    exact List.isEmpty_iff.mp (List.all_eq_true.mp hcurrent group hgroup)
  obtain ⟨_, hwhole⟩ := executor_is_batch hreachable
  obtain ⟨hperm, hsame⟩ := hwhole hall
  exact ⟨s, hexecute, hperm, hrecorded, hbatch, (hsame _).symm.trans hstored⟩

end photon_valence_identity.executor
