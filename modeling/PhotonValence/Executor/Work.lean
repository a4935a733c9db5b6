import PhotonValence.Executor.Drain
import PhotonValence.Executor.Resume
import PhotonValence.Handler.Representation

open photon_backend valence transition slots

namespace photon_valence_identity.executor

/-- What the executor does by itself: all but taking items from the streams and
being aborted. -/
def Action.is_turn {Value : Type} : Action Value → Bool
  | .abort | .group _ (.next _) => false
  | _ => true

/-- A subscription task pulls an event. -/
def Action.is_pull {Value : Type} : Action Value → Bool
  | .group _ (.next (some (.ok _))) => true
  | _ => false

/-- The turns that are left at most to a subscription task and the dispatches
it has still to spawn, while its stream hands out nothing. -/
def GroupTask.turns_left {Value : Type} (group : GroupTask Value) : Nat :=
  match group.pc with
  | .resuming => group.handlers.length - group.answers.length + 2
  | .polling => 1
  | .dispatching _ next => 8 * (group.handlers.length - next) + 2
  | .ended | .cancelled => 0

namespace Executor

/-- The handlers of the group of a key. -/
def handlers_of {Value Actor Valence : Type} (self : Executor Value Actor Valence) (key : TopicKey) :
    List HandlerDescriptor :=
  self.registry.handlers_for_topic_key key.1 key.2

/-- The turns that an executor has left at most while its streams hand out
nothing. -/
def turns_left {Value Actor Valence : Type} (self : Executor Value Actor Valence) (s : State Value Valence) :
    Nat :=
  (s.unspawned.map fun key => (self.handlers_of key).length + 3).sum + (s.groups.map GroupTask.turns_left).sum +
    (s.tasks.map fun task => 7 - task.pc.progress).sum

/-- The turns that one pulled event brings at most: the loop over the handlers,
and a dispatch to each. -/
def pull_turns {Value Actor Valence : Type} (self : Executor Value Actor Valence) : Nat :=
  8 * self.registry.len + 1

end Executor

/-- The groups put together have all registered handlers. -/
theorem Executor.sum_handlers {Value Actor Valence : Type} (self : Executor Value Actor Valence) :
    (self.keys.map fun key => (self.handlers_of key).length).sum = self.registry.len :=
  self.registry.represents_iter.len_eq self.keys self.keys_perm

theorem Sound.handlers_length_le {Value Actor Valence : Type} {self : Executor Value Actor Valence}
    {s : State Value Valence} (hsound : Sound self s) {group : GroupTask Value} (hgroup : group ∈ s.groups) :
    group.handlers.length ≤ self.registry.len := by
  rw [hsound.handlers_eq group hgroup, HandlerRegistry.handlers_for_topic_key_eq]
  exact List.length_filter_le _ _

/-- Every turn of a subscription task that takes nothing from its stream leaves
fewer turns, those of the dispatch it spawns included. -/
theorem GroupMoves.turns_left_lt {Value : Type} {group group' : GroupTask Value} {turn : GroupTurn Value}
    {spawned : Option (Nat × DispatchArgs Value)} (hmoves : GroupMoves group turn group' spawned)
    (hitem : ∀ item, turn ≠ .next item) :
    group'.turns_left + 7 * spawned.toList.length < group.turns_left := by
  cases hmoves with
  | lookup answer hpc hnext =>
    obtain ⟨hlt, _⟩ := List.getElem?_eq_some_iff.mp hnext
    simp only [GroupTask.turns_left, hpc, List.length_append, List.length_singleton, Option.toList_none,
      List.length_nil]
    omega
  | subscribe hpc =>
    simp only [GroupTask.turns_left, hpc, Option.toList_none, List.length_nil]
    omega
  | finish | stream_error | pull => exact absurd rfl (hitem _)
  | round_over hpc =>
    simp only [GroupTask.turns_left, hpc, Option.toList_none, List.length_nil]
    omega
  | pass_over hpc hnext =>
    obtain ⟨hlt, _⟩ := List.getElem?_eq_some_iff.mp hnext
    simp only [GroupTask.turns_left, hpc, Option.toList_none, List.length_nil]
    omega
  | spawn hpc hnext =>
    obtain ⟨hlt, _⟩ := List.getElem?_eq_some_iff.mp hnext
    simp only [GroupTask.turns_left, hpc, Option.toList_some, List.length_singleton]
    omega

/-- An item of the stream brings turns only when it is an event, and then those
of its round. -/
theorem GroupMoves.turns_left_next {Value : Type} {group group' : GroupTask Value}
    {item : Option (Except String (Event Value))} {spawned : Option (Nat × DispatchArgs Value)}
    (hmoves : GroupMoves group (.next item) group' spawned) (g : Nat) :
    spawned = none ∧ group'.turns_left ≤ group.turns_left +
      (if (Action.group g (.next item)).is_pull then 8 * group.handlers.length + 1 else 0) := by
  cases hmoves with
  | finish hpc => exact ⟨rfl, Nat.zero_le _⟩
  | stream_error => exact ⟨rfl, Nat.le_refl _⟩
  | pull ev hpc =>
    refine ⟨rfl, ?_⟩
    simp only [GroupTask.turns_left, hpc, Action.is_pull, if_true]
    omega

namespace Executor

/-- The steps of an executor use up turns, and only a pull brings some. -/
theorem turns_left_step {Value Actor Valence : Type} {self : Executor Value Actor Valence}
    {s s' : State Value Valence} {action : Action Value} (hsound : Sound self s)
    (hstep : self.step s action = some s') :
    self.turns_left s' + (if action.is_turn then 1 else 0) ≤
      self.turns_left s + (if action.is_pull then self.pull_turns else 0) := by
  cases transition_of_step hstep with
  | @skip_group key rest hkeys =>
    rw [turns_left, turns_left, hkeys, List.map_cons, List.sum_cons]
    simp only [Action.is_turn, if_true]
    omega
  | @spawn_group key rest hkeys =>
    rw [turns_left, turns_left, hkeys, List.map_cons, List.sum_cons, List.map_append, List.sum_append_nat]
    simp only [Action.is_turn, if_true, List.map_cons, List.map_nil, List.sum_singleton, GroupTask.turns_left,
      handlers_of, List.length_nil]
    omega
  | @group g turn group group' spawned hgroup hmoves =>
    have hgroups : ((s.groups.set g group').map GroupTask.turns_left).sum + group.turns_left =
        (s.groups.map GroupTask.turns_left).sum + group'.turns_left := sum_map_set_add hgroup
    have htasks : ((spawned.map fun dispatch =>
        (⟨⟨g, group.rounds.length, dispatch.1, dispatch.2⟩, .acquire⟩ : DispatchTask Value Valence)).toList.map
          fun task => 7 - task.pc.progress).sum = 7 * spawned.toList.length := by
      cases spawned <;> rfl
    simp only [turns_left, List.map_append, List.sum_append_nat, htasks]
    by_cases hitem : ∃ item, turn = .next item
    · obtain ⟨item, rfl⟩ := hitem
      obtain ⟨rfl, hbrings⟩ := hmoves.turns_left_next g
      have hlength := hsound.handlers_length_le (List.mem_of_getElem? hgroup)
      have hnone : (Action.group g (.next item) : Action Value).is_turn = false := rfl
      rw [hnone]
      simp only [Bool.false_eq_true, if_false, Option.toList_none, List.length_nil]
      cases hpull : (Action.group g (.next item) : Action Value).is_pull with
      | true =>
        simp only [hpull, if_true, pull_turns] at hbrings ⊢
        omega
      | false =>
        simp only [hpull, Bool.false_eq_true, if_false] at hbrings ⊢
        omega
    · have hless := hmoves.turns_left_lt fun item heq => hitem ⟨item, heq⟩
      have hone : (if (Action.group g turn).is_turn then 1 else 0) ≤ 1 := by
        split <;> omega
      omega
  | @dispatch i turn task pc' _ _ htask hmoves =>
    have hless := hmoves.progress_lt
    have hle := pc'.progress_le
    have hmoved : ((s.tasks.set i { task with pc := pc' }).map fun task => 7 - task.pc.progress).sum +
        (7 - task.pc.progress) = (s.tasks.map fun task => 7 - task.pc.progress).sum + (7 - pc'.progress) :=
      sum_map_set_add htask
    simp only [turns_left, Action.is_turn, if_true]
    omega
  | abort => exact Nat.le_refl _
  | @cancel g group _ hgroup hawaits =>
    have hleft : 1 ≤ group.turns_left := by
      obtain hpc | hpc := hawaits
      · simp only [GroupTask.turns_left, hpc]
        omega
      · simp only [GroupTask.turns_left, hpc]
        omega
    have hgroups : ((s.groups.set g { group with pc := .cancelled }).map GroupTask.turns_left).sum +
        group.turns_left = (s.groups.map GroupTask.turns_left).sum + 0 := sum_map_set_add hgroup
    simp only [turns_left, Action.is_turn, if_true]
    omega

/-- Every turn leaves fewer turns. -/
theorem turns_left_lt {Value Actor Valence : Type} {self : Executor Value Actor Valence}
    {s s' : State Value Valence} {action : Action Value} (hsound : Sound self s) (hturn : action.is_turn = true)
    (hstep : self.step s action = some s') : self.turns_left s' < self.turns_left s := by
  have hless := turns_left_step hsound hstep
  have hnever : action.is_pull = false := by
    unfold Action.is_pull
    split
    · cases hturn
    · rfl
  rw [hturn, hnever] at hless
  exact hless

theorem turns_left_start {Value Actor Valence : Type} (self : Executor Value Actor Valence) :
    self.turns_left self.start = self.registry.len + 3 * self.keys.length := by
  have hsum : ∀ keys : List TopicKey, (keys.map fun key => (self.handlers_of key).length + 3).sum =
      (keys.map fun key => (self.handlers_of key).length).sum + 3 * keys.length := by
    intro keys
    induction keys with
    | nil => rfl
    | cons key rest ih =>
      simp only [List.map_cons, List.sum_cons, List.length_cons, ih]
      omega
  rw [← self.sum_handlers, ← hsum]
  rfl

end Executor

/-- Nothing is left for the executor to do by itself. -/
def Quiescent {Value Actor Valence : Type} (self : Executor Value Actor Valence) (s : State Value Valence) : Prop :=
  ∀ action, action.is_turn = true → self.step s action = none

/-- `start_executor` has returned, every subscription task is over or waits for
its stream, and after an abort all are over; every dispatch has ended and all
permits are back. -/
structure WoundUp {Value Actor Valence : Type} (executor : Executor Value Actor Valence)
    (s : State Value Valence) : Prop where
  returned : s.unspawned = []
  groups_done : ∀ group ∈ s.groups, group.pc.is_over = true ∨ (s.aborted = false ∧ group.pc = .polling)
  finished : s.unfinished = 0
  permits_eq : s.permits = executor.worker_pool

namespace Quiescent

theorem returned {Value Actor Valence : Type} {self : Executor Value Actor Valence} {s : State Value Valence}
    (hquiet : Quiescent self s) : s.unspawned = [] := by
  have hnone := hquiet .spawn_group rfl
  cases hkeys : s.unspawned with
  | nil => rfl
  | cons key rest =>
    simp only [Executor.step, hkeys] at hnone
    split at hnone <;> cases hnone

/-- A subscription task with nothing left to do is over or waits for its
stream. -/
theorem group_done {Value Actor Valence : Type} {self : Executor Value Actor Valence} {s : State Value Valence}
    (hquiet : Quiescent self s) {g : Nat} {group : GroupTask Value} (hgroup : s.groups[g]? = some group) :
    group.pc.is_over = true ∨ (s.aborted = false ∧ group.pc = .polling) := by
  cases hpc : group.pc with
  | resuming =>
    exfalso
    cases hnext : group.handlers[group.answers.length]? with
    | some h =>
      have hnone := hquiet (.group g (.lookup (.ok none))) rfl
      simp [Executor.step, hgroup, group_step, hpc, hnext] at hnone
    | none =>
      have hnone := hquiet (.group g .subscribe) rfl
      simp [Executor.step, hgroup, group_step, hpc, hnext] at hnone
  | dispatching ev next =>
    obtain ⟨group', spawned, hturn, _⟩ := exists_spawn_turn hpc
    have hnone := hquiet (.group g .spawn) rfl
    simp [Executor.step, hgroup, hturn] at hnone
  | ended | cancelled => exact .inl rfl
  | polling =>
    cases haborted : s.aborted with
    | false => exact .inr ⟨rfl, rfl⟩
    | true =>
      have hnone := hquiet (.cancel g) rfl
      simp [Executor.step, haborted, hgroup, hpc] at hnone

theorem wound_up {Value Actor Valence : Type} {self : Executor Value Actor Valence} {s : State Value Valence}
    (hsound : Sound self s) (hpool : 0 < self.worker_pool) (hquiet : Quiescent self s) : WoundUp self s := by
  have hrest : AtRest self s := fun i turn => hquiet (.dispatch i turn) rfl
  obtain ⟨hfinished, hpermits⟩ := hsound.finished_at_rest hpool hrest
  refine ⟨hquiet.returned, fun group hmem => ?_, hfinished, hpermits⟩
  obtain ⟨g, hgroup⟩ := List.mem_iff_getElem?.mp hmem
  exact hquiet.group_done hgroup

end Quiescent

theorem WoundUp.quiescent {Value Actor Valence : Type} {self : Executor Value Actor Valence}
    {s : State Value Valence} (hdone : WoundUp self s) : Quiescent self s := by
  intro action hturn
  by_contra hsome
  obtain ⟨after, hstep⟩ := Option.ne_none_iff_exists'.mp hsome
  cases Executor.transition_of_step hstep with
  | skip_group hkeys | spawn_group hkeys => simp [hdone.returned] at hkeys
  | abort => cases hturn
  | @dispatch i _ task _ _ _ htask hmoves =>
    have hended : task.pc.ended = true := by
      simpa using List.countP_eq_zero.mp hdone.finished task (List.mem_of_getElem? htask)
    rw [hmoves.not_ended] at hended
    cases hended
  | cancel haborted hgroup hawaits =>
    obtain hover | ⟨hcalm, _⟩ := hdone.groups_done _ (List.mem_of_getElem? hgroup)
    · obtain hpc | hpc := hawaits <;> simp [hpc, GroupPc.is_over] at hover
    · simp [hcalm] at haborted
  | group hgroup hmoves =>
    have hidle := hdone.groups_done _ (List.mem_of_getElem? hgroup)
    cases hmoves with
    | finish | stream_error | pull => cases hturn
    | lookup _ hpc | subscribe hpc | round_over hpc | pass_over hpc | spawn hpc =>
      simp [hpc, GroupPc.is_over] at hidle

/-- The turns of the executor. -/
def ByItself {Value Valence : Type} (_ : State Value Valence) (action : Action Value) : Prop :=
  action.is_turn = true

/-- The executor winds up under every schedule and over any streams. It takes
only so many turns for what it pulls, whatever is interleaved; it has none left
exactly where its subscription tasks wait for their streams or are over, all
dispatches have ended and all permits are free; and wherever it is, it can get
there by itself. -/
theorem executor_winds_up {Value Actor Valence : Type} {self : Executor Value Actor Valence}
    {s : State Value Valence} {actions : List (Action Value)} (hpool : 0 < self.worker_pool)
    (hexecute : execute self.step self.start actions = some s) :
    actions.countP Action.is_turn ≤ self.registry.len + 3 * self.keys.length +
        (8 * self.registry.len + 1) * actions.countP Action.is_pull ∧
      (Quiescent self s ↔ WoundUp self s) ∧
      ∃ rest, Steps self.step ByItself s rest ∧ Quiescent self rest := by
  have hreachable : self.Reachable anyStep s := execute_anyStep actions hexecute
  refine ⟨?_, ⟨Quiescent.wound_up hreachable.sound hpool, WoundUp.quiescent⟩, ?_⟩
  · have hfuel : ∀ before action after, Sound self before → self.step before action = some after →
        Sound self after ∧ self.turns_left after + (if action.is_turn then 1 else 0) ≤
          self.turns_left before + (if action.is_pull then self.pull_turns else 0) :=
      fun _ _ _ hbefore hstep => ⟨Executor.sound_step hbefore hstep, Executor.turns_left_step hbefore hstep⟩
    have hturns := execute_countP_le_fuel hfuel actions self.sound_start hexecute
    rw [Executor.turns_left_start] at hturns
    exact (Nat.le_add_left _ _).trans hturns
  · have hgoes : ∀ state : State Value Valence, Sound self state → ¬ Quiescent self state →
        ∃ action after, ByItself state action ∧ self.step state action = some after ∧
          Sound self after ∧ self.turns_left after < self.turns_left state := by
      intro state hstate hbusy
      simp only [Quiescent, not_forall] at hbusy
      obtain ⟨action, hturn, hsome⟩ := hbusy
      obtain ⟨after, hstep⟩ := Option.ne_none_iff_exists'.mp hsome
      exact ⟨action, after, hturn, hstep, Executor.sound_step hstate hstep, Executor.turns_left_lt hstate hturn hstep⟩
    obtain ⟨rest, hrest, _, hquiet⟩ := exists_at_rest hgoes hreachable.sound
    exact ⟨rest, hrest, hquiet⟩

/-- An event is pulled and its dispatch has got a permit. -/
def handing_over : List (Action ActorJson) :=
  [.spawn_group, .group 0 (.lookup (.ok none)), .group 0 .subscribe,
    .group 0 (.next (some (.ok (orders_event none 1)))), .group 0 .spawn, .group 0 .spawn, .dispatch 0 .acquire]

theorem executor_winds_up_handing_over : ∃ s rest,
    execute billing_executor.step billing_executor.start handing_over = some s ∧
    handing_over.countP Action.is_turn ≤ 13 ∧ Steps billing_executor.step ByItself s rest ∧
    Quiescent billing_executor rest := by
  obtain ⟨s, hexecute⟩ : ∃ s, execute billing_executor.step billing_executor.start handing_over = some s := ⟨_, rfl⟩
  obtain ⟨hturns, _, rest, hrest, hquiet⟩ := executor_winds_up (by decide) hexecute
  exact ⟨s, rest, hexecute, hturns, hrest, hquiet⟩

end photon_valence_identity.executor
