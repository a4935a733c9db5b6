import Mathlib.Algebra.BigOperators.Group.List.Basic
import PhotonValence.Executor.Continue
import PhotonValence.Executor.Inventory
import PhotonValence.Slots.Partition

open photon_backend valence transition slots

namespace photon_valence_identity.executor

/-- The dispatches that were spawned and have not ended. -/
def State.unfinished {Value Valence : Type} (s : State Value Valence) : Nat :=
  s.tasks.countP fun task => !task.pc.ended

/-- No dispatch gets a turn. -/
def NoDispatch {Value Valence : Type} (_ : State Value Valence) : Action Value → Prop
  | .dispatch _ _ => False
  | _ => True

/-- The subscription tasks have all still to look up their checkpoints. -/
def State.Idle {Value Valence : Type} (s : State Value Valence) : Prop :=
  ∀ (g : Nat) (group : GroupTask Value), s.groups[g]? = some group → group.pc = .resuming ∧ group.pulled = []

namespace Executor

/-- While no dispatch gets a turn, all that were spawned wait for a permit. -/
theorem Reachable.unfinished_eq {Value Actor Valence : Type} {self : Executor Value Actor Valence}
    {s : State Value Valence} (hreachable : self.Reachable NoDispatch s) :
    s.unfinished = s.tasks.length := by
  have hwaiting : ∀ task ∈ s.tasks, task.pc = .acquire := by
    apply Steps.invariant hreachable
    · intro before action after hbefore hok hstep task' htask'
      obtain ⟨i, hi⟩ := List.mem_iff_getElem?.mp htask'
      obtain ⟨task, htask, _, hstays | ⟨_, _, rfl, _⟩⟩ | hfresh := (transition_of_step hstep).task_origin hi
      · rw [hstays]
        exact hbefore task (List.mem_of_getElem? htask)
      · exact hok.elim
      · exact hfresh
    · intro task htask
      cases htask
  rw [State.unfinished, List.countP_eq_length]
  intro task htask
  rw [hwaiting task htask]
  rfl

theorem group_turn_steps {Value Actor Valence : Type} (self : Executor Value Actor Valence)
    {s : State Value Valence} {g : Nat} {turn : GroupTurn Value} {group group' : GroupTask Value}
    {spawned : Option (Nat × DispatchArgs Value)} (hgroup : s.groups[g]? = some group)
    (hturn : group_step group turn = some (group', spawned)) :
    ∃ s', Steps self.step NoDispatch s s' ∧ s'.groups[g]? = some group' := by
  obtain ⟨s', hstep, hgroup'⟩ := self.take_group_turn hgroup hturn
  have hok : NoDispatch s (.group g turn) := trivial
  exact ⟨s', .single hok hstep, hgroup'⟩

/-- The loop of `start_executor` runs to its end before any of the tasks it
spawned moves. -/
theorem can_return {Value Actor Valence : Type} (self : Executor Value Actor Valence)
    {s : State Value Valence} (hidle : s.Idle) :
    ∃ s', Steps self.step NoDispatch s s' ∧ s'.unspawned = [] ∧ s'.Idle := by
  induction hkeys : s.unspawned generalizing s with
  | nil => exact ⟨s, .refl s, hkeys, hidle⟩
  | cons key rest ih =>
    obtain ⟨next, hstep, hrest⟩ : ∃ next, self.step s .spawn_group = some next ∧ next.unspawned = rest := by
      simp only [step, hkeys]
      split
      · exact ⟨_, rfl, rfl⟩
      · exact ⟨_, rfl, rfl⟩
    have hnext : next.Idle := by
      intro g group hgroup
      cases (transition_of_step hstep).group_change hgroup with
      | stays hgroup => exact hidle g group hgroup
      | fresh hpc hpulled => exact ⟨hpc, hpulled⟩
      | moves _ haction | cancelled _ haction => cases haction
    obtain ⟨s', hrun, hreturned, hidle'⟩ := ih hnext hrest
    have hok : NoDispatch s (.spawn_group : Action Value) := trivial
    exact ⟨s', (Steps.single hok hstep).trans hrun, hreturned, hidle'⟩

/-- A subscription task can make its lookups and subscribe. -/
theorem can_open {Value Actor Valence : Type} (self : Executor Value Actor Valence)
    {s : State Value Valence} {g : Nat} {group : GroupTask Value} (hgroup : s.groups[g]? = some group)
    (hpc : group.pc = .resuming) :
    ∃ s' group', Steps self.step NoDispatch s s' ∧ s'.groups[g]? = some group' ∧ group'.pc = .polling ∧
      group'.handlers = group.handlers ∧ group'.rounds = group.rounds := by
  induction hleft : group.handlers.length - group.answers.length generalizing s group with
  | zero =>
    have hdone : group.handlers[group.answers.length]? = none := List.getElem?_eq_none (by omega)
    have hturn : group_step group .subscribe = some ({ group with pc := .polling }, none) := by
      simp only [group_step, hpc, hdone]
    obtain ⟨s', hturned, hgroup'⟩ := self.group_turn_steps hgroup hturn
    exact ⟨s', _, hturned, hgroup', rfl, rfl, rfl⟩
  | succ left ih =>
    have hnext : group.handlers[group.answers.length]? = some group.handlers[group.answers.length] :=
      List.getElem?_eq_getElem (by omega)
    have hturn : group_step group (.lookup (Except.ok none)) = some ({ group with
        scan := group.scan.visit group.handlers[group.answers.length] fun _ => Except.ok none
        answers := group.answers ++ [Except.ok none] }, none) := by
      simp only [group_step, hpc, hnext]
    obtain ⟨next, hturned, hgroup'⟩ := self.group_turn_steps hgroup hturn
    have hleft' : group.handlers.length - (group.answers ++ [Except.ok none]).length = left := by
      rw [List.length_append, List.length_singleton]
      omega
    obtain ⟨s', group', hrun, hopened, hpolling, hhandlers, hrounds⟩ := ih hgroup' hpc hleft'
    exact ⟨s', group', hturned.trans hrun, hopened, hpolling, hhandlers, hrounds⟩

/-- A subscription task that has an event in hand can spawn its dispatches and
come back to its stream, whether or not a permit is free. -/
theorem can_finish_round {Value Actor Valence : Type} (self : Executor Value Actor Valence)
    {s : State Value Valence} {g next : Nat} {group : GroupTask Value} {ev : Event Value}
    (hgroup : s.groups[g]? = some group) (hpc : group.pc = .dispatching ev next) :
    ∃ s' group', Steps self.step NoDispatch s s' ∧ s'.groups[g]? = some group' ∧ group'.pc = .polling ∧
      group'.handlers = group.handlers ∧ group'.rounds = group.rounds ++ [ev] := by
  induction hleft : group.handlers.length - next generalizing s group next with
  | zero =>
    obtain ⟨group', spawned, hturn, hhandlers, ⟨hpolling, hrounds⟩ | ⟨hlt, _⟩⟩ := exists_spawn_turn hpc
    · obtain ⟨s', hturned, hgroup'⟩ := self.group_turn_steps hgroup hturn
      exact ⟨s', group', hturned, hgroup', hpolling, hhandlers, hrounds⟩
    · omega
  | succ left ih =>
    obtain ⟨group', spawned, hturn, hhandlers, hnext⟩ := exists_spawn_turn hpc
    obtain ⟨s', hturned, hgroup'⟩ := self.group_turn_steps hgroup hturn
    obtain ⟨hpolling, hrounds⟩ | ⟨hlt, hmore, hrounds⟩ := hnext
    · exact ⟨s', group', hturned, hgroup', hpolling, hhandlers, hrounds⟩
    · have hleft' : group'.handlers.length - (next + 1) = left := by
        rw [hhandlers]
        omega
      obtain ⟨finish, last, hrun, hlast, hpolling, hhandlers', hrounds'⟩ := ih hgroup' hmore hleft'
      refine ⟨finish, last, hturned.trans hrun, hlast, hpolling, hhandlers'.trans hhandlers, ?_⟩
      rw [hrounds', hrounds]

/-- A subscription task can pull any number of events one after the other. -/
theorem can_pull {Value Actor Valence : Type} (self : Executor Value Actor Valence) (ev : Event Value)
    (n : Nat) {s : State Value Valence} {g : Nat} {group : GroupTask Value}
    (hgroup : s.groups[g]? = some group) (hpc : group.pc = .polling) :
    ∃ s' group', Steps self.step NoDispatch s s' ∧ s'.groups[g]? = some group' ∧
      group'.handlers = group.handlers ∧ group'.rounds = group.rounds ++ List.replicate n ev := by
  induction n generalizing s group with
  | zero => exact ⟨s, group, .refl s, hgroup, rfl, by simp⟩
  | succ n ih =>
    have hturn : group_step group (.next (some (.ok ev))) =
        some ({ group with pc := .dispatching ev 0 }, none) := by
      simp only [group_step, hpc]
    obtain ⟨pulled, hturned, hgroup'⟩ := self.group_turn_steps hgroup hturn
    obtain ⟨s', group', hround, hgroup'', hpolling, hhandlers, hrounds⟩ := self.can_finish_round hgroup' rfl
    obtain ⟨finish, last, hrun, hlast, hhandlers', hrounds'⟩ := ih hgroup'' hpolling
    refine ⟨finish, last, hturned.trans (hround.trans hrun), hlast, hhandlers'.trans hhandlers, ?_⟩
    rw [hrounds', hrounds, List.append_assoc, List.singleton_append, List.replicate_succ]

end Executor

/-- Every pulled event has its dispatch to a handler that takes it. -/
theorem GroupTask.length_rounds_le {Value : Type} {group : GroupTask Value} {k : Nat}
    {h : HandlerDescriptor} (hh : group.handlers[k]? = some h)
    (htakes : ∀ ev ∈ group.rounds, h.matches_event ev.topic_name ev.topic_key = true) (g : Nat) :
    group.rounds.length ≤ (group.spawns g).length := by
  have hround : ∀ spawned ∈ group.rounds.zipIdx.map fun pulled =>
      (spawn_round g pulled.2 group.handlers pulled.1 group.handlers.length).length, 1 ≤ spawned := by
    intro spawned hspawned
    obtain ⟨pulled, hpulled, rfl⟩ := List.mem_map.mp hspawned
    have hev : pulled.1 ∈ group.rounds := List.fst_mem_of_mem_zipIdx hpulled
    have hlt := (List.getElem?_eq_some_iff.mp hh).1
    have hmem : (⟨g, pulled.2, k, dispatch_args h pulled.1⟩ : Spawn Value) ∈
        spawn_round g pulled.2 group.handlers pulled.1 group.handlers.length :=
      mem_spawn_round_iff.mpr ⟨h, hlt, hh, htakes _ hev, rfl⟩
    exact List.length_pos_of_mem hmem
  have hsum := List.length_le_sum_of_one_le _ hround
  rw [List.length_map, List.length_zipIdx, ← List.length_flatMap] at hsum
  rw [GroupTask.spawns, List.length_append]
  omega

/-- A group never stops pulling: with a single handler registered, the
dispatches that wait become more than any number. -/
theorem Executor.exceeds {Value Actor Valence : Type} [Inhabited Value]
    (self : Executor Value Actor Valence) {h : HandlerDescriptor} (hh : h ∈ self.registry.iter) (bound : Nat) :
    ∃ s, self.Reachable NoDispatch s ∧ bound < s.unfinished := by
  have hstart : self.start.Idle := by
    intro g group hgroup
    cases hgroup
  obtain ⟨returned, hreturn, hreturned, hidle⟩ := self.can_return hstart
  have hsound : Sound self returned := Executor.Reachable.sound hreturn
  obtain ⟨g, group, k, hgroup, hk⟩ := hsound.registered hreturned hh
  obtain ⟨hpc, hpulled⟩ := hidle g group hgroup
  obtain ⟨opened, group', hopen, hgroup', hpolling, hhandlers, hrounds⟩ := self.can_open hgroup hpc
  let ev : Event Value := ⟨"", h.topic_name, h.topic_key_filter, 0, default, default⟩
  obtain ⟨s, last, hpull, hlast, hhandlers', hrounds'⟩ := self.can_pull ev (bound + 1) hgroup' hpolling
  have hreachable : self.Reachable NoDispatch s := hreturn.trans (hopen.trans hpull)
  refine ⟨s, hreachable, ?_⟩
  have hempty : group.rounds = [] := (List.append_eq_nil_iff.mp hpulled).1
  rw [hrounds, hempty, List.nil_append] at hrounds'
  have htakes : ∀ pulled ∈ last.rounds, h.matches_event pulled.topic_name pulled.topic_key = true := by
    intro pulled hmem
    rw [hrounds'] at hmem
    rw [List.eq_of_mem_replicate hmem, HandlerDescriptor.matches_event_iff]
    exact ⟨rfl, .inr rfl⟩
  have hk' : last.handlers[k]? = some h := by rw [hhandlers', hhandlers, hk]
  calc bound < last.rounds.length := by simp [hrounds']
    _ ≤ (last.spawns g).length := GroupTask.length_rounds_le hk' htakes g
    _ = (s.spawned g).length := by rw [(Executor.Reachable.sound hreachable).spawned_eq g last hlast]
    _ ≤ (s.tasks.map DispatchTask.toSpawn).length := List.length_filter_le _ _
    _ = s.unfinished := by rw [List.length_map, hreachable.unfinished_eq]

/-- An event is pulled only while fewer dispatches are unfinished than the pool
has permits. -/
def Executor.PullsUnsaturated {Value Actor Valence : Type} (self : Executor Value Actor Valence)
    (s : State Value Valence) : Action Value → Prop
  | .group _ (.next (some (.ok _))) => s.unfinished < self.worker_pool
  | _ => True

/-- The group has pulled a further event since the one of the dispatch. -/
def State.is_old {Value Valence : Type} (s : State Value Valence) (task : DispatchTask Value Valence) : Bool :=
  s.groups[task.group]?.any fun group => task.occurrence + 1 < group.pulled.length

/-- The unfinished dispatches of events that are not the last their group
pulled. -/
def State.backlog {Value Valence : Type} (s : State Value Valence) : Nat :=
  s.tasks.countP fun task => !task.pc.ended && s.is_old task

theorem Moves.not_ended {Value Actor Valence : Type} {env : DispatchEnv Value Actor Valence}
    {args : DispatchArgs Value} {pc pc' : Pc Valence} {turn : Turn} {effects : List (Effect Value Valence)}
    (hmoves : Moves env args pc turn pc' effects) : pc.ended = false := by
  cases hmoves <;> rfl

theorem State.backlog_le_unfinished {Value Valence : Type} (s : State Value Valence) :
    s.backlog ≤ s.unfinished := by
  apply List.countP_mono_left
  intro task _ hboth
  exact ((Bool.and_eq_true _ _).mp hboth).1

/-- A step makes a dispatch old only by a pull. -/
theorem Executor.Transition.is_old_eq {Value Actor Valence : Type} {self : Executor Value Actor Valence}
    {s s' : State Value Valence} {action : Action Value} (htransition : self.Transition s action s')
    (hquiet : ∀ g ev, action ≠ .group g (.next (some (.ok ev)))) {task : DispatchTask Value Valence}
    (howned : task.group < s.groups.length) : s'.is_old task = s.is_old task := by
  have hgroup := List.getElem?_eq_getElem howned
  obtain ⟨group', hgroup', hchange⟩ := htransition.group_after hgroup
  have hpulled : group'.pulled = s.groups[task.group].pulled := by
    obtain rfl | ⟨turn, spawned, rfl, hmoves⟩ | ⟨rfl, hawaits⟩ := hchange
    · rfl
    · apply hmoves.pulled_eq
      rintro ev rfl
      exact hquiet _ ev rfl
    · obtain hpc | hpc := hawaits <;> simp [GroupTask.pulled, GroupTask.current, hpc]
  simp only [State.is_old, hgroup, hgroup', Option.any_some, hpulled]

/-- A step adds to the backlog only by a pull. -/
theorem Executor.Transition.backlog_le {Value Actor Valence : Type} {self : Executor Value Actor Valence}
    {s s' : State Value Valence} {action : Action Value} (htransition : self.Transition s action s')
    (hsound : Sound self s) (hquiet : ∀ g ev, action ≠ .group g (.next (some (.ok ev)))) :
    s'.backlog ≤ s.backlog := by
  have hstays : (s.tasks.countP fun task => !task.pc.ended && s'.is_old task) = s.backlog := by
    apply List.countP_congr
    intro task htask
    rw [htransition.is_old_eq hquiet (hsound.owned task htask)]
  cases htransition with
  | @group g turn group group' spawned hgroup hmoves =>
    rw [← hstays, State.backlog, List.countP_append]
    cases hmoves with
    | @spawn ev next descriptor hpc =>
      have hlast : (s.groups.set g { group with pc := .dispatching ev (next + 1) })[g]? =
          some { group with pc := .dispatching ev (next + 1) } := getElem?_set_self hgroup
      simp [State.is_old, hlast, GroupTask.pulled, GroupTask.current]
    | _ => rfl
  | @dispatch i turn task pc' effects permits htask hmoves hpermits =>
    have hcount : (s.tasks.set i { task with pc := pc' }).countP (fun task => !task.pc.ended && s.is_old task) +
        (if !task.pc.ended && s.is_old task then 1 else 0) =
          s.backlog + (if !pc'.ended && s.is_old task then 1 else 0) := countP_set_add htask
    have hmore : (if !pc'.ended && s.is_old task then 1 else 0) ≤
        if !task.pc.ended && s.is_old task then 1 else 0 := by
      rw [hmoves.not_ended]
      cases pc'.ended <;> simp
    show (s.tasks.set i { task with pc := pc' }).countP (fun task => !task.pc.ended && s.is_old task) ≤ _
    omega
  | _ => exact hstays.le

/-- In a run that pulls only while the pool is unsaturated, fewer dispatches of
older events are unfinished than the pool has permits. -/
theorem Executor.Reachable.backlog_le {Value Actor Valence : Type} {self : Executor Value Actor Valence}
    {s : State Value Valence} (hreachable : self.Reachable self.PullsUnsaturated s) :
    s.backlog ≤ self.worker_pool := by
  apply Steps.invariant_along hreachable
  · intro before action after hbefore hbacklog hok hstep
    have htransition := transition_of_step hstep
    by_cases hpull : ∃ g ev, action = .group g (.next (some (.ok ev)))
    · obtain ⟨g, ev, rfl⟩ := hpull
      have hless : before.unfinished < self.worker_pool := hok
      have hsame : after.unfinished = before.unfinished := by
        cases htransition with
        | group _ hmoves =>
          cases hmoves
          simp [State.unfinished]
      have hle := after.backlog_le_unfinished
      omega
    · simp only [not_exists] at hpull
      exact (htransition.backlog_le (Reachable.sound hbefore) hpull).trans hbacklog
  · simp [State.backlog, start]

/-- The groups have no more handlers than are registered. -/
theorem Sound.length_handlers_le {Value Actor Valence : Type} {self : Executor Value Actor Valence}
    {s : State Value Valence} (hsound : Sound self s) :
    (s.groups.flatMap GroupTask.handlers).length ≤ self.registry.iter.length := by
  have hgroups : s.groups.flatMap GroupTask.handlers = (s.groups.map GroupTask.key).flatMap fun key =>
      self.registry.iter.filter fun h => h.topicKey = key := by
    rw [List.flatMap_map]
    apply List.flatMap_congr
    intro group hgroup
    rw [hsound.handlers_eq group hgroup, HandlerRegistry.handlers_for_topic_key_eq]
    rfl
  have hnodup : (s.groups.map GroupTask.key).Nodup := by
    have hkeys : (s.groups.map GroupTask.key ++ s.unspawned).Nodup := by
      rw [hsound.keys_eq]
      exact self.keys_perm.nodup_iff.mpr (HandlerRegistry.topic_subscription_keys_nodup _)
    exact (List.nodup_append.mp hkeys).1
  rw [hgroups, (flatMap_filter_perm HandlerDescriptor.topicKey self.registry.iter hnodup).length_eq]
  exact List.length_filter_le _ _

/-- The group and the handler a dispatch is for. -/
def DispatchTask.place {Value Valence : Type} (task : DispatchTask Value Valence) : Nat × Nat :=
  (task.group, task.entry)

/-- The handlers of all groups, by position. -/
def State.places {Value Valence : Type} (s : State Value Valence) : List (Nat × Nat) :=
  s.groups.zipIdx.flatMap fun group => (List.range group.1.handlers.length).map fun entry => (group.2, entry)

theorem State.length_places {Value Valence : Type} (s : State Value Valence) :
    s.places.length = (s.groups.flatMap GroupTask.handlers).length := by
  have hnumbered : (s.groups.zipIdx.flatMap fun group => group.1.handlers) =
      s.groups.flatMap GroupTask.handlers := flatMap_zipIdx_fst _ _
  rw [State.places, ← hnumbered, List.length_flatMap, List.length_flatMap]
  simp

/-- A dispatch that is not old is for the last event its group pulled. -/
theorem Sound.serves_last {Value Actor Valence : Type} {self : Executor Value Actor Valence}
    {s : State Value Valence} (hsound : Sound self s) {task : DispatchTask Value Valence}
    (htask : task ∈ s.tasks) (hnew : s.is_old task = false) :
    ∃ group, s.groups[task.group]? = some group ∧ task.entry < group.handlers.length ∧
      task.occurrence + 1 = group.pulled.length := by
  obtain ⟨_, ⟨group, hgroup, hentry, hpulled, _⟩, _⟩ := hsound.takes_of_task htask
  have hlt := (List.getElem?_eq_some_iff.mp hpulled).1
  simp only [State.is_old, hgroup, Option.any_some, decide_eq_false_iff_not] at hnew
  exact ⟨group, hgroup, (List.getElem?_eq_some_iff.mp hentry).1, by omega⟩

/-- No handler has two dispatches for the last event its group pulled. -/
theorem Sound.nodup_last_places {Value Actor Valence : Type} {self : Executor Value Actor Valence}
    {s : State Value Valence} (hsound : Sound self s) :
    ((s.tasks.filter fun task => !s.is_old task).map DispatchTask.place).Nodup := by
  rw [List.Nodup, List.pairwise_map, List.pairwise_filter, List.pairwise_iff_getElem]
  intro i j hi hj hlt hfirst hsecond hsame
  simp only [Bool.not_eq_true'] at hfirst hsecond
  obtain ⟨hgroup, hentry⟩ := Prod.mk.inj hsame
  obtain ⟨group, hg, _, hpulled⟩ := hsound.serves_last (List.getElem_mem hi) hfirst
  obtain ⟨group', hg', _, hpulled'⟩ := hsound.serves_last (List.getElem_mem hj) hsecond
  rw [hgroup] at hg
  cases Option.some.inj (hg.symm.trans hg')
  have hij := hsound.task_unique (List.getElem?_eq_getElem hi) (List.getElem?_eq_getElem hj)
    ⟨hgroup.symm, by omega, hentry.symm⟩
  omega

/-- A group has at most one dispatch for each of its handlers that serves the
last event it pulled. -/
theorem Sound.count_last_le {Value Actor Valence : Type} {self : Executor Value Actor Valence}
    {s : State Value Valence} (hsound : Sound self s) :
    (s.tasks.countP fun task => !s.is_old task) ≤ self.registry.iter.length := by
  have hsubset : ((s.tasks.filter fun task => !s.is_old task).map DispatchTask.place) ⊆ s.places := by
    intro _ hmem
    obtain ⟨task, htask, rfl⟩ := List.mem_map.mp hmem
    obtain ⟨hmember, hnew⟩ := List.mem_filter.mp htask
    obtain ⟨group, hgroup, hentry, _⟩ := hsound.serves_last hmember (by simpa using hnew)
    exact List.mem_flatMap.mpr ⟨(group, task.group), List.mem_zipIdx_iff_getElem?.mpr hgroup,
      List.mem_map.mpr ⟨task.entry, List.mem_range.mpr hentry, rfl⟩⟩
  calc s.tasks.countP (fun task => !s.is_old task)
      = ((s.tasks.filter fun task => !s.is_old task).map DispatchTask.place).length := by
        rw [List.length_map, List.countP_eq_length_filter]
    _ ≤ s.places.length := (List.subperm_of_subset hsound.nodup_last_places hsubset).length_le
    _ ≤ self.registry.iter.length := s.length_places ▸ hsound.length_handlers_le

/-- The pulled dispatches that are unfinished stay below a bound in every run
only of an executor without handlers. Were events pulled only while the pool is
unsaturated, there would be at most one for each permit and each handler. -/
theorem backpressure_iff_no_handlers {Value Actor Valence : Type} [Inhabited Value]
    (self : Executor Value Actor Valence) :
    ((∃ bound, ∀ s, self.Reachable anyStep s → s.unfinished ≤ bound) ↔ self.registry.iter = []) ∧
      ∀ s, self.Reachable self.PullsUnsaturated s →
        s.unfinished ≤ self.worker_pool + self.registry.iter.length := by
  refine ⟨⟨?_, ?_⟩, ?_⟩
  · rintro ⟨bound, hbound⟩
    apply List.eq_nil_iff_forall_not_mem.mpr
    intro h hh
    obtain ⟨s, hreachable, hmore⟩ := self.exceeds hh bound
    have hle := hbound s (hreachable.weaken fun _ _ _ => trivial)
    omega
  · intro hnone
    refine ⟨0, fun s hreachable => ?_⟩
    have hsound := hreachable.sound
    have htasks : s.tasks = [] := by
      apply List.eq_nil_iff_forall_not_mem.mpr
      intro task htask
      obtain ⟨h, ⟨group, hgroup, hentry, _⟩, _⟩ := hsound.takes_of_task htask
      have hle := hsound.length_handlers_le
      have hmem : h ∈ s.groups.flatMap GroupTask.handlers :=
        List.mem_flatMap.mpr ⟨group, List.mem_of_getElem? hgroup, List.mem_of_getElem? hentry⟩
      have hpos := List.length_pos_of_mem hmem
      rw [hnone, List.length_nil] at hle
      omega
    simp [State.unfinished, htasks]
  · intro s hreachable
    have hlast := hreachable.sound.count_last_le
    have hold := hreachable.backlog_le
    have hsplit : s.unfinished ≤ s.backlog + s.tasks.countP fun task => !s.is_old task := by
      have hnew : (s.tasks.filter fun task => !s.is_old task).countP (fun task => !task.pc.ended) ≤
          s.tasks.countP fun task => !s.is_old task := by
        rw [List.countP_eq_length_filter (p := fun task => !s.is_old task)]
        exact List.countP_le_length
      rw [State.unfinished, State.backlog, List.countP_eq_countP_filter_add _ _ s.is_old, List.countP_filter]
      omega
    omega

/-- A single handler and two permits: the dispatches that wait for a permit
become more than any number. -/
theorem billing_unbounded :
    ¬ ∃ bound, ∀ s, billing_executor.Reachable anyStep s → s.unfinished ≤ bound := by
  rintro ⟨bound, hbound⟩
  have hregistered : orders_handler (some "billing") none .Durable 0 ∈ billing_executor.registry.iter := .head _
  obtain ⟨s, hreachable, hmore⟩ := billing_executor.exceeds hregistered bound
  have hle := hbound s (hreachable.weaken fun _ _ _ => trivial)
  omega

end photon_valence_identity.executor
