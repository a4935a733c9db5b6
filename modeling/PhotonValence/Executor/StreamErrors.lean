import PhotonValence.Executor.Inventory
import PhotonValence.Executor.Pairs
import PhotonValence.Transition.View

open photon_backend valence transition slots

namespace photon_valence_identity.executor

/-- The error that group `g` gets from its stream by the action. -/
def Action.stream_error {Value : Type} (g : Nat) : Action Value → Option String
  | .group g' (.next (some (.error e))) => if g' = g then some e else none
  | _ => none

def Action.is_stream_error {Value : Type} : Action Value → Bool
  | .group _ (.next (some (.error _))) => true
  | _ => false

def GroupTask.unlogged {Value : Type} (group : GroupTask Value) : GroupTask Value :=
  { group with ops_log := [] }

/-- The state without the rows that its tasks have logged. -/
def State.unlogged {Value Valence : Type} (s : State Value Valence) : State Value Valence :=
  { s with groups := s.groups.map GroupTask.unlogged }

/-- The rows that the task of group `g` has logged. -/
def State.ops_log {Value Valence : Type} (s : State Value Valence) (g : Nat) : List (String × telemetry.Fields) :=
  (s.groups[g]?.map GroupTask.ops_log).getD []

/-- Every other turn is taken in the same way whatever errors there were. -/
theorem GroupMoves.unlogged {Value : Type} {group group' : GroupTask Value} {turn : GroupTurn Value}
    {spawned : Option (Nat × DispatchArgs Value)} (hmoves : GroupMoves group turn group' spawned)
    (hother : ∀ e, turn ≠ .next (some (.error e))) :
    group_step group.unlogged turn = some (group'.unlogged, spawned) ∧ group'.ops_log = group.ops_log := by
  cases hmoves with
  | stream_error => exact absurd rfl (hother _)
  | lookup answer hpc hnext => exact ⟨by simp [group_step, GroupTask.unlogged, hpc, hnext], rfl⟩
  | subscribe hpc hdone => exact ⟨by simp [group_step, GroupTask.unlogged, hpc, hdone], rfl⟩
  | finish hpc | pull _ hpc => exact ⟨by simp [group_step, GroupTask.unlogged, hpc], rfl⟩
  | round_over hpc hdone => exact ⟨by simp [group_step, GroupTask.unlogged, hpc, hdone], rfl⟩
  | pass_over hpc hnext hforeign => exact ⟨by simp [group_step, GroupTask.unlogged, hpc, hnext, hforeign], rfl⟩
  | spawn hpc hnext hmatches => exact ⟨by simp [group_step, GroupTask.unlogged, hpc, hnext, hmatches], rfl⟩

namespace Executor

theorem unlogged_of_stream_error {Value Actor Valence : Type} {self : Executor Value Actor Valence}
    {s s' : State Value Valence} {action : Action Value} (herror : action.is_stream_error = true)
    (hstep : self.step s action = some s') : s'.unlogged = s.unlogged := by
  cases transition_of_step hstep with
  | @group g turn group group' spawned hgroup hmoves =>
    obtain ⟨e, rfl⟩ : ∃ e, turn = .next (some (.error e)) := by
      cases hmoves with
      | stream_error => exact ⟨_, rfl⟩
      | _ => cases herror
    obtain ⟨row, _, rfl, rfl⟩ := hmoves.stream_error_eq
    have hsame : (s.groups.set g { group with ops_log := group.ops_log ++ [row] }).map GroupTask.unlogged =
        s.groups.map GroupTask.unlogged := map_set_eq hgroup rfl
    simp [State.unlogged, hsame]
  | _ => cases herror

theorem step_unlogged {Value Actor Valence : Type} {self : Executor Value Actor Valence}
    {s s' : State Value Valence} {action : Action Value} (hother : action.is_stream_error = false)
    (hstep : self.step s action = some s') : self.step s.unlogged action = some s'.unlogged := by
  cases transition_of_step hstep with
  | skip_group hkeys hempty => simp [step, State.unlogged, hkeys, hempty]
  | spawn_group hkeys hsome => simp [step, State.unlogged, hkeys, hsome, GroupTask.unlogged]
  | @group g turn group group' spawned hgroup hmoves =>
    have hturn : ∀ e, turn ≠ .next (some (.error e)) := by
      rintro e rfl
      cases hother
    obtain ⟨hunlogged, _⟩ := hmoves.unlogged hturn
    have hgroup' : s.unlogged.groups[g]? = some group.unlogged := by simp [State.unlogged, hgroup]
    simp only [step, hgroup', hunlogged]
    simp [State.unlogged, GroupTask.unlogged, List.map_set]
  | @dispatch i turn task pc' effects permits =>
    have hsame : self.step s.unlogged (.dispatch i turn) = (self.step s (.dispatch i turn)).map State.unlogged := by
      simp only [step, State.unlogged]
      cases s.tasks[i]? with
      | none => rfl
      | some task =>
        simp only
        cases dispatch_step self.toDispatchEnv task.args task.pc turn with
        | none => rfl
        | some taken =>
          simp only
          cases permits_after s.permits task.pc taken.1 <;> rfl
    rw [hsame, hstep, Option.map_some]
  | abort hreturned => simp [step, State.unlogged, hreturned]
  | cancel haborted hgroup hawaits =>
    obtain hpc | hpc := hawaits <;> simp [step, State.unlogged, haborted, hgroup, GroupTask.unlogged, hpc, List.map_set]

/-- A turn of group `g` logs the row of its stream error, if it is one. -/
theorem ops_log_group {Value : Type} {group group' : GroupTask Value} {g : Nat} {turn : GroupTurn Value}
    {spawned : Option (Nat × DispatchArgs Value)} (hmoves : GroupMoves group turn group' spawned) :
    group'.ops_log.map some = group.ops_log.map some ++
      ((Action.group g turn).stream_error g).toList.map (stream_error_row group.topic_name) := by
  by_cases herror : ∃ e, turn = .next (some (.error e))
  · obtain ⟨e, rfl⟩ := herror
    obtain ⟨row, hrow, rfl, _⟩ := hmoves.stream_error_eq
    simp [Action.stream_error, hrow]
  · have hother : ∀ e, turn ≠ .next (some (.error e)) := fun e heq => herror ⟨e, heq⟩
    have hnone : (Action.group g turn).stream_error g = none := by
      unfold Action.stream_error
      split
      · rename_i heq
        cases heq
        exact absurd rfl (hother _)
      · rfl
    simp [(hmoves.unlogged hother).2, hnone]

/-- The rows of group `g`, whose topic is `topic_name`, after a step: one more
for an error of its stream. -/
theorem ops_log_step {Value Actor Valence : Type} {self : Executor Value Actor Valence}
    {s s' : State Value Valence} {action : Action Value} (g : Nat) (hstep : self.step s action = some s')
    {topic_name : String} (htopic : ∀ group, s.groups[g]? = some group → group.topic_name = topic_name) :
    (s'.ops_log g).map some =
      (s.ops_log g).map some ++ (action.stream_error g).toList.map (stream_error_row topic_name) := by
  cases transition_of_step hstep with
  | spawn_group =>
    obtain hlt | hge := Nat.lt_or_ge g s.groups.length
    · simp [State.ops_log, Action.stream_error, List.getElem?_append_left hlt]
    · rw [State.ops_log, State.ops_log, List.getElem?_append_right hge, List.getElem?_eq_none hge]
      cases g - s.groups.length <;> rfl
  | @group g' turn group group' _ hgroup hmoves =>
    by_cases hsame : g' = g
    · subst hsame
      rw [State.ops_log, State.ops_log, getElem?_set_self hgroup, hgroup, ← htopic group hgroup]
      exact ops_log_group hmoves
    · have hnone : (Action.group g' turn).stream_error g = none := by
        unfold Action.stream_error
        split
        · rename_i heq
          cases heq
          exact if_neg hsame
        · rfl
      simp [State.ops_log, List.getElem?_set_ne hsame, hnone]
  | @cancel g' group _ hgroup =>
    by_cases hsame : g' = g
    · subst hsame
      simp [State.ops_log, getElem?_set_self hgroup, hgroup, Action.stream_error]
    · simp [State.ops_log, List.getElem?_set_ne hsame, Action.stream_error]
  | _ => exact (List.append_nil _).symm

end Executor

/-- Stream errors are logged and do nothing else. Without them the same run
leads to the same state, but for the rows; and each subscription task has
logged a row for each error of its stream, in their order. -/
theorem stream_errors_only_logged {Value Actor Valence : Type} {self : Executor Value Actor Valence}
    {s : State Value Valence} {actions : List (Action Value)}
    (hexecute : execute self.step self.start actions = some s) :
    execute self.step self.start (actions.filter fun action => !action.is_stream_error) = some s.unlogged ∧
      ∀ (g : Nat) (group : GroupTask Value), s.groups[g]? = some group →
        group.ops_log.map some = (actions.filterMap (Action.stream_error g)).map (stream_error_row group.topic_name) ∧
        ∀ row ∈ group.ops_log, ∃ kept, kept.utf8ByteSize ≤ telemetry.MAX_ERROR_LEN + 2 ∧
          row = ("photon_ops_log", [("component", "executor"), ("operation", "stream_error"),
            ("message", "executor stream error"), ("topic", group.topic_name), ("subscription", ""),
            ("error", kept)]) := by
  have herased := execute_erase (fun _ _ _ => Executor.unlogged_of_stream_error)
    (fun _ _ _ => Executor.step_unlogged) actions hexecute
  refine ⟨herased, fun g group hgroup => ?_⟩
  have hsound : Sound self s := Executor.Reachable.sound (execute_anyStep actions hexecute)
  have hlogged : group.ops_log.map some =
      (actions.filterMap (Action.stream_error g)).map (stream_error_row group.topic_name) := by
    have hadds : ∀ before action after, Sound self before → self.step before action = some after →
        Sound self after ∧ (after.ops_log g).map some = (before.ops_log g).map some ++
          ((action.stream_error g).map (stream_error_row group.topic_name)).toList := by
      intro before action after hbefore hstep
      rw [Option.toList_map]
      refine ⟨Executor.sound_step hbefore hstep, Executor.ops_log_step g hstep fun other hother => ?_⟩
      have hkey := Option.some.inj ((hbefore.key_at hother).symm.trans (hsound.key_at hgroup))
      exact congrArg Prod.fst hkey
    have hcollected := execute_collects (Sound self) hadds actions (Executor.sound_start self) hexecute
    have hnone : self.start.ops_log g = [] := by simp [State.ops_log, Executor.start]
    have hall : s.ops_log g = group.ops_log := by simp [State.ops_log, hgroup]
    rw [← hall, hcollected, hnone, List.map_nil, List.nil_append, List.map_filterMap]
  refine ⟨hlogged, fun row hrow => ?_⟩
  have hmem := List.mem_map_of_mem (f := some) hrow
  rw [hlogged] at hmem
  obtain ⟨e, _, he⟩ := List.mem_map.mp hmem
  obtain ⟨kept, _, hsize, hrow'⟩ := telemetry.exists_log_ops "executor" "stream_error" "executor stream error"
    group.topic_name "" e
  exact ⟨kept, hsize, Option.some.inj (he.symm.trans hrow')⟩

/-- A stream that fails before and after it hands out an event. -/
def failing : List (Action ActorJson) :=
  [.spawn_group, .group 0 (.lookup (.ok none)), .group 0 .subscribe,
    .group 0 (.next (some (.error "connection reset"))), .group 0 (.next (some (.ok (orders_event none 1)))),
    .group 0 .spawn, .group 0 .spawn, .group 0 (.next (some (.error "timed out"))), .dispatch 0 .acquire]

theorem stream_errors_only_logged_failing : ∃ s group,
    execute billing_executor.step billing_executor.start failing = some s ∧ s.groups[0]? = some group ∧
    execute billing_executor.step billing_executor.start (failing.filter fun action => !action.is_stream_error) =
      some s.unlogged ∧
    group.ops_log.map some = ["connection reset", "timed out"].map (stream_error_row "orders") := by
  obtain ⟨s, group, hexecute, hgroup, htopic⟩ : ∃ s group,
      execute billing_executor.step billing_executor.start failing = some s ∧ s.groups[0]? = some group ∧
        group.topic_name = "orders" := ⟨_, _, rfl, rfl, rfl⟩
  obtain ⟨herased, hlogged⟩ := stream_errors_only_logged hexecute
  refine ⟨s, group, hexecute, hgroup, herased, ?_⟩
  rw [← htopic]
  exact (hlogged 0 group hgroup).1

end photon_valence_identity.executor
