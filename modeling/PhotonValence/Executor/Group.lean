import PhotonValence.Executor.Dispatch
import PhotonValence.Executor.InitialSeq
import PhotonValence.Slots.Update
import PhotonValence.Telemetry.OpsLog

open photon_backend slots

namespace photon_valence_identity.executor

/-- Where the subscription task of a group stands: in the loop of
`initial_subscription_after_seq`, waiting on its stream, or spawning the
dispatches of an event, with the index of the next descriptor to look at. -/
inductive GroupPc (Value : Type) where
  | resuming
  | polling
  | dispatching (ev : Event Value) (next : Nat)
  | ended
  | cancelled

/-- The subscription task of one `(topic, key filter)` group. `answers` and
`rounds` are history: what the visited handlers' lookups answered, and the
pulled events whose dispatches have all been spawned. `ops_log` has the rows the
task has logged. -/
structure GroupTask (Value : Type) where
  topic_name : String
  topic_key_filter : Option String
  handlers : List HandlerDescriptor
  scan : ResumeScan := {}
  answers : List CheckpointAnswer := []
  rounds : List (Event Value) := []
  ops_log : List (String × telemetry.Fields) := []
  pc : GroupPc Value := .resuming

/-- One turn of a subscription task, with what the environment answers in it:
a checkpoint lookup, the subscribe call, the next stream item, one iteration
of the loop over the descriptors. -/
inductive GroupTurn (Value : Type) where
  | lookup (answer : CheckpointAnswer)
  | subscribe
  | next (item : Option (Except String (Event Value)))
  | spawn

/-- The event being dispatched, if the task is between two items. -/
def GroupTask.current {Value : Type} (group : GroupTask Value) : List (Event Value) :=
  match group.pc with
  | .dispatching ev _ => [ev]
  | _ => []

/-- The events pulled from the stream so far. -/
def GroupTask.pulled {Value : Type} (group : GroupTask Value) : List (Event Value) :=
  group.rounds ++ group.current

/-- The value passed to `subscribe` as `after_seq`. -/
def GroupTask.after_seq {Value : Type} (group : GroupTask Value) : Option Int := group.scan.result

/-- The iterations of `initial_subscription_after_seq` done so far, each with
what its lookup answered. -/
def GroupTask.calls {Value : Type} (group : GroupTask Value) :
    List (HandlerDescriptor × (String → CheckpointAnswer)) :=
  (group.handlers.zip group.answers).map fun call => (call.1, fun _ => call.2)

/-- The task has opened its stream. -/
def GroupTask.is_open {Value : Type} (group : GroupTask Value) : Bool :=
  match group.pc with
  | .polling | .dispatching _ _ => true
  | _ => false

/-- The arguments `start_executor` gives the dispatch of an event to a
descriptor. -/
def dispatch_args {Value : Type} (descriptor : HandlerDescriptor) (event : Event Value) :
    DispatchArgs Value where
  subscription_name := descriptor.subscription_name
  is_durable := is_durable_descriptor descriptor.mode
  topic_name := event.topic_name
  dispatch := descriptor.dispatch
  ev := event

/-- The row the subscription task of a topic logs for an error of its stream. -/
def stream_error_row (topic_name e : String) : Option (String × telemetry.Fields) :=
  telemetry.log_ops "executor" "stream_error" "executor stream error" topic_name "" e

/-- The subscription task, cut at the points where other tasks can be seen to
run. A turn may spawn one dispatch: the index of its descriptor and its
arguments. -/
def group_step {Value : Type} (group : GroupTask Value) :
    GroupTurn Value → Option (GroupTask Value × Option (Nat × DispatchArgs Value))
  | .lookup answer =>
    match group.pc, group.handlers[group.answers.length]? with
    | .resuming, some h =>
      some ({ group with
        scan := group.scan.visit h fun _ => answer
        answers := group.answers ++ [answer] }, none)
    | _, _ => none
  | .subscribe =>
    match group.pc, group.handlers[group.answers.length]? with
    | .resuming, none => some ({ group with pc := .polling }, none)
    | _, _ => none
  | .next item =>
    match group.pc, item with
    | .polling, none => some ({ group with pc := .ended }, none)
    | .polling, some (.error e) =>
      match stream_error_row group.topic_name e with
      | none => none
      | some row => some ({ group with ops_log := group.ops_log ++ [row] }, none)
    | .polling, some (.ok ev) => some ({ group with pc := .dispatching ev 0 }, none)
    | _, _ => none
  | .spawn =>
    match group.pc with
    | .dispatching ev next =>
      match group.handlers[next]? with
      | none => some ({ group with pc := .polling, rounds := group.rounds ++ [ev] }, none)
      | some descriptor =>
        let advanced := { group with pc := .dispatching ev (next + 1) }
        if !descriptor.matches_event ev.topic_name ev.topic_key then some (advanced, none)
        else some (advanced, some (next, dispatch_args descriptor ev))
    | _ => none

/-- The turns a subscription task takes, one constructor for each way. -/
inductive GroupMoves {Value : Type} (group : GroupTask Value) :
    GroupTurn Value → GroupTask Value → Option (Nat × DispatchArgs Value) → Prop where
  | lookup {h : HandlerDescriptor} (answer : CheckpointAnswer) (hpc : group.pc = .resuming)
      (hnext : group.handlers[group.answers.length]? = some h) :
      GroupMoves group (.lookup answer)
        { group with scan := group.scan.visit h fun _ => answer, answers := group.answers ++ [answer] } none
  | subscribe (hpc : group.pc = .resuming) (hdone : group.handlers[group.answers.length]? = none) :
      GroupMoves group .subscribe { group with pc := .polling } none
  | finish (hpc : group.pc = .polling) : GroupMoves group (.next none) { group with pc := .ended } none
  | stream_error {e : String} {row : String × telemetry.Fields} (hpc : group.pc = .polling)
      (hrow : stream_error_row group.topic_name e = some row) :
      GroupMoves group (.next (some (.error e))) { group with ops_log := group.ops_log ++ [row] } none
  | pull (ev : Event Value) (hpc : group.pc = .polling) :
      GroupMoves group (.next (some (.ok ev))) { group with pc := .dispatching ev 0 } none
  | round_over {ev : Event Value} {next : Nat} (hpc : group.pc = .dispatching ev next)
      (hdone : group.handlers[next]? = none) :
      GroupMoves group .spawn { group with pc := .polling, rounds := group.rounds ++ [ev] } none
  | pass_over {ev : Event Value} {next : Nat} {descriptor : HandlerDescriptor}
      (hpc : group.pc = .dispatching ev next) (hnext : group.handlers[next]? = some descriptor)
      (hforeign : descriptor.matches_event ev.topic_name ev.topic_key = false) :
      GroupMoves group .spawn { group with pc := .dispatching ev (next + 1) } none
  | spawn {ev : Event Value} {next : Nat} {descriptor : HandlerDescriptor}
      (hpc : group.pc = .dispatching ev next) (hnext : group.handlers[next]? = some descriptor)
      (hmatches : descriptor.matches_event ev.topic_name ev.topic_key = true) :
      GroupMoves group .spawn { group with pc := .dispatching ev (next + 1) }
        (some (next, dispatch_args descriptor ev))

/-- Inversion of a subscription task's turn. -/
theorem moves_of_group_step {Value : Type} {group group' : GroupTask Value} {turn : GroupTurn Value}
    {spawned : Option (Nat × DispatchArgs Value)}
    (hstep : group_step group turn = some (group', spawned)) : GroupMoves group turn group' spawned := by
  cases turn with
  | lookup answer =>
    simp only [group_step] at hstep
    split at hstep
    · rename_i h hpc hnext
      cases hstep
      exact .lookup answer hpc hnext
    · cases hstep
  | subscribe =>
    simp only [group_step] at hstep
    split at hstep
    · rename_i hpc hdone
      cases hstep
      exact .subscribe hpc hdone
    · cases hstep
  | next item =>
    simp only [group_step] at hstep
    split at hstep
    · rename_i hpc
      cases hstep
      exact .finish hpc
    · rename_i e hpc
      split at hstep
      · cases hstep
      · rename_i row hrow
        cases hstep
        exact .stream_error hpc hrow
    · rename_i ev hpc
      cases hstep
      exact .pull ev hpc
    · cases hstep
  | spawn =>
    simp only [group_step] at hstep
    split at hstep
    · rename_i ev next hpc
      split at hstep
      · rename_i hdone
        cases hstep
        exact .round_over hpc hdone
      · rename_i descriptor hnext
        split at hstep
        · rename_i hforeign
          cases hstep
          exact .pass_over hpc hnext (by simpa using hforeign)
        · rename_i hmatches
          cases hstep
          exact .spawn hpc hnext (by simpa using hmatches)
    · cases hstep

/-- Every listed move of a subscription task is one that it takes. -/
theorem GroupMoves.step_eq {Value : Type} {group group' : GroupTask Value} {turn : GroupTurn Value}
    {spawned : Option (Nat × DispatchArgs Value)} (hmoves : GroupMoves group turn group' spawned) :
    group_step group turn = some (group', spawned) := by
  cases hmoves with
  | lookup _ hpc hnext => simp [group_step, hpc, hnext]
  | subscribe hpc hdone | round_over hpc hdone => simp [group_step, hpc, hdone]
  | finish hpc | pull _ hpc => simp [group_step, hpc]
  | stream_error hpc hrow => simp [group_step, hpc, hrow]
  | pass_over hpc hnext hforeign => simp [group_step, hpc, hnext, hforeign]
  | spawn hpc hnext hmatches => simp [group_step, hpc, hnext, hmatches]

/-- A task that has an event in hand can always go on: to its next descriptor,
or back to its stream when there is none left. -/
theorem exists_spawn_turn {Value : Type} {group : GroupTask Value} {ev : Event Value} {next : Nat}
    (hpc : group.pc = .dispatching ev next) :
    ∃ group' spawned, group_step group .spawn = some (group', spawned) ∧
      group'.handlers = group.handlers ∧
      ((group'.pc = .polling ∧ group'.rounds = group.rounds ++ [ev]) ∨
        (next < group.handlers.length ∧ group'.pc = .dispatching ev (next + 1) ∧
          group'.rounds = group.rounds)) := by
  simp only [group_step, hpc]
  split
  · exact ⟨_, _, rfl, rfl, .inl ⟨rfl, rfl⟩⟩
  · rename_i descriptor hnext
    have hlt := (List.getElem?_eq_some_iff.mp hnext).1
    split
    · exact ⟨_, _, rfl, rfl, .inr ⟨hlt, rfl, rfl⟩⟩
    · exact ⟨_, _, rfl, rfl, .inr ⟨hlt, rfl, rfl⟩⟩

/-- A turn leaves the group's topic, filter and handlers as they are. -/
theorem GroupMoves.same_group {Value : Type} {group group' : GroupTask Value} {turn : GroupTurn Value}
    {spawned : Option (Nat × DispatchArgs Value)} (hmoves : GroupMoves group turn group' spawned) :
    group'.topic_name = group.topic_name ∧ group'.topic_key_filter = group.topic_key_filter ∧
      group'.handlers = group.handlers := by
  cases hmoves <;> exact ⟨rfl, rfl, rfl⟩

/-- A stream error is logged and nothing else. -/
theorem GroupMoves.stream_error_eq {Value : Type} {group group' : GroupTask Value} {e : String}
    {spawned : Option (Nat × DispatchArgs Value)}
    (hmoves : GroupMoves group (.next (some (.error e))) group' spawned) :
    ∃ row, stream_error_row group.topic_name e = some row ∧
      group' = { group with ops_log := group.ops_log ++ [row] } ∧ spawned = none := by
  cases hmoves with
  | stream_error _ hrow => exact ⟨_, hrow, rfl, rfl⟩

/-- A turn that is not a pull leaves the pulled events as they are. -/
theorem GroupMoves.pulled_eq {Value : Type} {group group' : GroupTask Value} {turn : GroupTurn Value}
    {spawned : Option (Nat × DispatchArgs Value)} (hmoves : GroupMoves group turn group' spawned)
    (hquiet : ∀ ev, turn ≠ .next (some (.ok ev))) : group'.pulled = group.pulled := by
  cases hmoves with
  | pull ev => exact absurd rfl (hquiet ev)
  | subscribe hpc | finish hpc => simp [GroupTask.pulled, GroupTask.current, hpc]
  | round_over hpc | pass_over hpc | spawn hpc => simp [GroupTask.pulled, GroupTask.current, hpc]
  | _ => rfl

theorem GroupMoves.pulled_pull {Value : Type} {group group' : GroupTask Value} {ev : Event Value}
    {spawned : Option (Nat × DispatchArgs Value)}
    (hmoves : GroupMoves group (.next (some (.ok ev))) group' spawned) :
    group'.pulled = group.pulled ++ [ev] := by
  cases hmoves with
  | pull _ hpc => simp [GroupTask.pulled, GroupTask.current, hpc]

/-- The accumulators are those of the iterations done. -/
theorem GroupMoves.scan_eq {Value : Type} {group group' : GroupTask Value} {turn : GroupTurn Value}
    {spawned : Option (Nat × DispatchArgs Value)} (hmoves : GroupMoves group turn group' spawned)
    (hscan : group.scan = ResumeScan.of_calls group.calls) : group'.scan = ResumeScan.of_calls group'.calls := by
  cases hmoves with
  | lookup answer _ hnext =>
    rw [GroupTask.calls, zip_concat hnext, List.map_append, ResumeScan.of_calls, List.foldl_append, hscan]
    rfl
  | _ => exact hscan

end photon_valence_identity.executor
