import PhotonValence.Executor.Conservation
import PhotonValence.Executor.Resume
import PhotonValence.Executor.Routing
import PhotonValence.Executor.Store

open photon_backend valence transition slots

namespace photon_valence_identity.executor

/-- What handler `k` of group `g` has been handed so far, oldest first: the
arguments of the dispatches spawned for it. -/
def State.handed {Value Valence : Type} (s : State Value Valence) (g k : Nat) : List (DispatchArgs Value) :=
  ((s.spawned g).filter fun spawn => spawn.entry = k).map Spawn.args

/-- The pulled events for which the loop over the descriptors has come past
descriptor `k`. -/
def GroupTask.offered {Value : Type} (group : GroupTask Value) (k : Nat) : List (Event Value) :=
  group.rounds ++
    match group.pc with
    | .dispatching ev next => if k < next then [ev] else []
    | _ => []

/-- Every handler has been offered what the group has pulled, but for the event
in hand. -/
theorem GroupTask.offered_prefix {Value : Type} (group : GroupTask Value) (k : Nat) :
    group.offered k <+: group.pulled := by
  unfold offered pulled current
  rw [List.prefix_append_right_inj]
  cases group.pc with
  | dispatching ev next =>
    dsimp only
    split
    · exact List.prefix_refl _
    · exact List.nil_prefix
  | _ => exact List.prefix_refl _

theorem GroupTask.offered_eq_pulled {Value : Type} {group : GroupTask Value} (hpolling : group.pc = .polling)
    (k : Nat) : group.offered k = group.pulled := by
  simp [offered, pulled, current, hpolling]

/-- The round of an event has at most one dispatch for a handler: once the loop
has come past it, and if it takes the event. -/
theorem spawn_round_filter {Value : Type} {g occurrence k : Nat} {handlers : List HandlerDescriptor}
    {h : HandlerDescriptor} (hk : handlers[k]? = some h) (ev : Event Value) (next : Nat) :
    ((spawn_round g occurrence handlers ev next).filter fun spawn => spawn.entry = k).map Spawn.args =
      (((if k < next then [ev] else []).filter fun ev => h.matches_event ev.topic_name ev.topic_key).map
        (routed_args h)) := by
  induction next with
  | zero => simp [spawn_round]
  | succ next ih =>
    rw [spawn_round, List.filter_append, List.map_append, ih]
    by_cases hlast : next = k
    · subst hlast
      rw [hk]
      by_cases hmatches : h.matches_event ev.topic_name ev.topic_key = true <;> simp [hmatches, dispatch_args_eq]
    · have hbound : k < next + 1 ↔ k < next := by omega
      simp only [hbound]
      cases handlers[next]? with
      | none => simp
      | some descriptor =>
        by_cases hmatches : descriptor.matches_event ev.topic_name ev.topic_key = true <;> simp [hmatches, hlast]

/-- What the subscription task has spawned for a handler: one dispatch for each
event offered to it that it takes, in the order of the stream. -/
theorem GroupTask.spawns_filter {Value : Type} {group : GroupTask Value} {k : Nat} {h : HandlerDescriptor}
    (hk : group.handlers[k]? = some h) (g : Nat) :
    ((group.spawns g).filter fun spawn => spawn.entry = k).map Spawn.args =
      ((group.offered k).filter fun ev => h.matches_event ev.topic_name ev.topic_key).map (routed_args h) := by
  obtain ⟨hlt, _⟩ := List.getElem?_eq_some_iff.mp hk
  have hrounds : ∀ (rounds : List (Event Value)) (occurrence : Nat),
      (((rounds.zipIdx occurrence).flatMap fun pulled =>
        spawn_round g pulled.2 group.handlers pulled.1 group.handlers.length).filter
          fun spawn => spawn.entry = k).map Spawn.args =
        (rounds.filter fun ev => h.matches_event ev.topic_name ev.topic_key).map (routed_args h) := by
    intro rounds
    induction rounds with
    | nil => simp
    | cons ev rest ih =>
      intro occurrence
      rw [List.zipIdx_cons, List.flatMap_cons, List.filter_append, List.map_append, ih, spawn_round_filter hk,
        if_pos hlt, ← List.map_append, ← List.filter_append]
      rfl
  rw [GroupTask.spawns, GroupTask.offered, List.filter_append, List.map_append, hrounds, List.filter_append,
    List.map_append]
  congr 1
  cases group.pc with
  | dispatching ev next => exact spawn_round_filter hk ev next
  | _ => rfl

/-- A handler has been handed exactly the events offered to it that it takes. -/
theorem Sound.handed_eq {Value Actor Valence : Type} {self : Executor Value Actor Valence}
    {s : State Value Valence} (hsound : Sound self s) {g k : Nat} {group : GroupTask Value}
    {h : HandlerDescriptor} (hgroup : s.groups[g]? = some group) (hk : group.handlers[k]? = some h) :
    s.handed g k =
      ((group.offered k).filter fun ev => h.matches_event ev.topic_name ev.topic_key).map (routed_args h) := by
  rw [State.handed, hsound.spawned_eq g group hgroup, GroupTask.spawns_filter hk]

/-- An effect of a pair is one of its dispatch task. -/
theorem State.mem_pair_log {Value Valence : Type} {s : State Value Valence} {g o k : Nat}
    {effect : Effect Value Valence} (hmem : effect ∈ s.pair_log g o k) :
    ∃ (i : Nat) (task : DispatchTask Value Valence), s.tasks[i]? = some task ∧ task.Serves g o k ∧
      (i, effect) ∈ s.trace := by
  obtain ⟨⟨i, _⟩, hentry, rfl⟩ := List.mem_map.mp hmem
  obtain ⟨htrace, hany⟩ := List.mem_filter.mp hentry
  obtain ⟨task, htask, hserves⟩ := (Option.any_eq_true _ _).mp hany
  exact ⟨i, task, htask, by simpa using hserves, htrace⟩

theorem Sound.pair_log_invoke_count_le {Value Actor Valence : Type} {self : Executor Value Actor Valence}
    {s : State Value Valence} (hsound : Sound self s) (g o k : Nat) :
    (s.pair_log g o k).countP Effect.is_invoke ≤ 1 := by
  by_cases hserved : ∃ task ∈ s.tasks, task.Serves g o k
  · obtain ⟨task, hmember, hserves⟩ := hserved
    obtain ⟨i, htask⟩ := List.mem_iff_getElem?.mp hmember
    rw [hsound.pair_log_eq htask hserves]
    exact (hsound.ledger i task htask).invoke_count_le
  · rw [hsound.pair_log_eq_nil fun task htask hserves => hserved ⟨task, htask, hserves⟩]
    exact Nat.zero_le _

/-- Handler `k` of group `g`, which is `h`, is handed the events of `stream` that
it takes, in its order and one dispatch for each; and it is run at most once for
each, with its own function and that event. -/
structure HandsOn {Value Valence : Type} (s : State Value Valence) (g k : Nat) (h : HandlerDescriptor)
    (stream : List (Event Value)) : Prop where
  handed_prefix : s.handed g k <+:
    (stream.filter fun ev => h.matches_event ev.topic_name ev.topic_key).map (routed_args h)
  run_once : ∀ o, (s.pair_log g o k).countP Effect.is_invoke ≤ 1
  run_with : ∀ o dispatch valence ev, .invoke dispatch valence ev ∈ s.pair_log g o k →
    dispatch = h.dispatch ∧ stream[o]? = some ev ∧ h.matches_event ev.topic_name ev.topic_key = true

theorem Sound.hands_on {Value Actor Valence : Type} {self : Executor Value Actor Valence}
    {s : State Value Valence} (hsound : Sound self s) {g k : Nat} {group : GroupTask Value}
    {h : HandlerDescriptor} (hgroup : s.groups[g]? = some group) (hk : group.handlers[k]? = some h) :
    HandsOn s g k h group.pulled := by
  constructor
  · rw [hsound.handed_eq hgroup hk]
    exact ((group.offered_prefix k).filter _).map _
  · exact fun o => hsound.pair_log_invoke_count_le g o k
  · intro o dispatch valence ev hmem
    obtain ⟨i, task, htask, ⟨howner, rfl, rfl⟩, htrace⟩ := State.mem_pair_log hmem
    obtain ⟨caller, hcaller, rfl, rfl, _⟩ := hsound.invoke_mem htrace
    cases Option.some.inj (htask.symm.trans hcaller)
    obtain ⟨descriptor, ⟨own, hown, hentry, hpulled, hmatches⟩, hargs⟩ := hsound.takes_of_getElem? htask
    rw [howner, hgroup] at hown
    cases hown
    cases Option.some.inj (hk.symm.trans hentry)
    refine ⟨?_, hpulled, hmatches⟩
    rw [hargs]
    rfl

/-- Over any streams, a group hands nothing on until it subscribes. Each of its
handlers is handed what the group has pulled for it, in order and once, and all
of that whenever the group waits for its stream. -/
theorem handlers_follow_stream {Value Actor Valence : Type} {self : Executor Value Actor Valence}
    {s : State Value Valence} (hreachable : self.Reachable anyStep s) {g : Nat} {group : GroupTask Value}
    (hgroup : s.groups[g]? = some group) :
    (group.pc = .resuming → ∀ k, s.handed g k = []) ∧
    ∀ k h, group.handlers[k]? = some h → HandsOn s g k h group.pulled ∧
      (group.pc = .polling → s.handed g k =
        (group.pulled.filter fun ev => h.matches_event ev.topic_name ev.topic_key).map (routed_args h)) := by
  have hsound := hreachable.sound
  constructor
  · intro hpc k
    have hnone := hreachable.resuming_pulled g group hgroup hpc
    rw [State.handed, List.map_eq_nil_iff, List.filter_eq_nil_iff]
    intro spawn hspawn
    obtain ⟨hmem, howner⟩ := List.mem_filter.mp hspawn
    obtain ⟨task, htask, rfl⟩ := List.mem_map.mp hmem
    obtain ⟨_, ⟨own, hown, _, htaken, _⟩, _⟩ := hsound.takes_of_task htask
    rw [of_decide_eq_true howner, hgroup] at hown
    cases hown
    rw [hnone] at htaken
    cases htaken
  · intro k h hk
    refine ⟨hsound.hands_on hgroup hk, fun hpolling => ?_⟩
    rw [hsound.handed_eq hgroup hk, GroupTask.offered_eq_pulled hpolling]

/-- Two events for two handlers: of the second only the first handler has been
offered its share. -/
def handing_on : List (Action ActorJson) :=
  [.spawn_group, .group 0 (.lookup (.ok (some 5))), .group 0 (.lookup (.ok none)), .group 0 .subscribe,
    .group 0 (.next (some (.ok (orders_event none 7)))), .group 0 .spawn, .group 0 .spawn, .group 0 .spawn,
    .group 0 (.next (some (.ok (orders_event (some "eu") 8)))), .group 0 .spawn]

theorem handlers_follow_stream_handing_on : ∃ s group,
    execute mixed_executor.step mixed_executor.start handing_on = some s ∧ s.groups[0]? = some group ∧
      group.pulled = [orders_event none 7, orders_event (some "eu") 8] ∧
      ∀ k h, group.handlers[k]? = some h → HandsOn s 0 k h group.pulled := by
  obtain ⟨s, group, hexecute, hgroup, hpulled⟩ : ∃ s group,
      execute mixed_executor.step mixed_executor.start handing_on = some s ∧ s.groups[0]? = some group ∧
        group.pulled = [orders_event none 7, orders_event (some "eu") 8] := ⟨_, _, rfl, rfl, rfl⟩
  refine ⟨s, group, hexecute, hgroup, hpulled, fun k h hk => ?_⟩
  exact ((handlers_follow_stream (execute_anyStep _ hexecute) hgroup).2 k h hk).1

end photon_valence_identity.executor
