import PhotonValence.Executor.Sound

open photon_backend transition slots

namespace photon_valence_identity.executor

/-- Group `g` has pulled `ev` as its event number `o`, and its handler number
`k` is `descriptor` and takes the event. -/
def State.Takes {Value Valence : Type} (s : State Value Valence) (g o k : Nat)
    (descriptor : HandlerDescriptor) (ev : Event Value) : Prop :=
  ∃ group, s.groups[g]? = some group ∧ group.handlers[k]? = some descriptor ∧
    group.pulled[o]? = some ev ∧ descriptor.matches_event ev.topic_name ev.topic_key = true

/-- The dispatch was spawned for event `o` and handler `k` of group `g`. -/
def Spawn.Serves {Value : Type} (spawn : Spawn Value) (g o k : Nat) : Prop :=
  spawn.group = g ∧ spawn.occurrence = o ∧ spawn.entry = k

/-- The dispatch of the event to the handler has returned Ok or its event is in
the DLQ. -/
def State.Settled {Value Valence : Type} (s : State Value Valence) (g o k : Nat) : Prop :=
  ∃ task ∈ s.tasks, task.Serves g o k ∧ task.pc.settled = true

theorem mem_log_iff {Value Valence : Type} {s : State Value Valence} {i : Nat}
    {effect : Effect Value Valence} : effect ∈ s.log i ↔ (i, effect) ∈ s.trace := by
  simp only [State.log, List.mem_map, List.mem_filter, decide_eq_true_eq, Prod.exists]
  constructor
  · rintro ⟨_, _, ⟨hmem, rfl⟩, rfl⟩
    exact hmem
  · intro hmem
    exact ⟨i, effect, ⟨hmem, rfl⟩, rfl⟩

namespace Sound

/-- The handlers of a group have its topic and filter. -/
theorem topicKey_eq {Value Actor Valence : Type} {self : Executor Value Actor Valence}
    {s : State Value Valence} (hsound : Sound self s) {group : GroupTask Value} (hgroup : group ∈ s.groups)
    {h : HandlerDescriptor} (hh : h ∈ group.handlers) :
    h.topic_name = group.topic_name ∧ h.topic_key_filter = group.topic_key_filter := by
  rw [hsound.handlers_eq group hgroup] at hh
  exact Prod.mk.inj (HandlerRegistry.topicKey_of_mem_group hh)

/-- Once `start_executor` has returned, every registered handler is in a
group. -/
theorem registered {Value Actor Valence : Type} {self : Executor Value Actor Valence}
    {s : State Value Valence} (hsound : Sound self s) (hreturned : s.unspawned = [])
    {h : HandlerDescriptor} (hh : h ∈ self.registry.iter) :
    ∃ (g : Nat) (group : GroupTask Value) (k : Nat), s.groups[g]? = some group ∧
      group.handlers[k]? = some h := by
  have hkeys := hsound.keys_eq
  rw [hreturned, List.append_nil] at hkeys
  have hkey : h.topicKey ∈ s.groups.map GroupTask.key := by
    rw [hkeys, self.keys_perm.mem_iff, HandlerRegistry.mem_topic_subscription_keys_iff]
    exact ⟨h, hh, rfl⟩
  obtain ⟨group, hgroup, hsame⟩ := List.mem_map.mp hkey
  have hmember : h ∈ group.handlers := by
    rw [hsound.handlers_eq group hgroup, HandlerRegistry.handlers_for_topic_key_eq]
    exact List.mem_filter.mpr ⟨hh, decide_eq_true hsame.symm⟩
  obtain ⟨g, hg⟩ := List.mem_iff_getElem?.mp hgroup
  obtain ⟨k, hk⟩ := List.mem_iff_getElem?.mp hmember
  exact ⟨g, group, k, hg, hk⟩

/-- Every dispatch task was spawned for an event its group pulled and a handler
of the group that takes it, with the arguments of that pair. -/
theorem takes_of_task {Value Actor Valence : Type} {self : Executor Value Actor Valence}
    {s : State Value Valence} (hsound : Sound self s) {task : DispatchTask Value Valence}
    (htask : task ∈ s.tasks) :
    ∃ descriptor, s.Takes task.group task.occurrence task.entry descriptor task.args.ev ∧
      task.args = dispatch_args descriptor task.args.ev := by
  have howned := hsound.owned task htask
  have hgroup := List.getElem?_eq_getElem howned
  have hmem : task.toSpawn ∈ s.spawned task.group :=
    List.mem_filter.mpr ⟨List.mem_map_of_mem htask, by simp⟩
  rw [hsound.spawned_eq _ _ hgroup] at hmem
  obtain ⟨ev, descriptor, hpulled, hentry, hmatches, hspawn, _⟩ := GroupTask.mem_spawns_iff.mp hmem
  have hargs : task.args = dispatch_args descriptor ev := congrArg Spawn.args hspawn
  have hev : task.args.ev = ev := by rw [hargs]; rfl
  rw [hev]
  exact ⟨descriptor, ⟨_, hgroup, hentry, hpulled, hmatches⟩, hargs⟩

theorem takes_of_getElem? {Value Actor Valence : Type} {self : Executor Value Actor Valence}
    {s : State Value Valence} (hsound : Sound self s) {i : Nat} {task : DispatchTask Value Valence}
    (htask : s.tasks[i]? = some task) :
    ∃ descriptor, s.Takes task.group task.occurrence task.entry descriptor task.args.ev ∧
      task.args = dispatch_args descriptor task.args.ev :=
  hsound.takes_of_task (List.mem_of_getElem? htask)

/-- The dispatches of one group are spawned in order. -/
theorem before_of_lt {Value Actor Valence : Type} {self : Executor Value Actor Valence}
    {s : State Value Valence} (hsound : Sound self s) {i j : Nat} {first second : DispatchTask Value Valence}
    (hfirst : s.tasks[i]? = some first) (hsecond : s.tasks[j]? = some second)
    (hgroup : second.group = first.group) (hlt : i < j) : first.toSpawn.before second.toSpawn := by
  have howned := hsound.owned first (List.mem_of_getElem? hfirst)
  have hpairwise : (s.spawned first.group).Pairwise Spawn.before := by
    rw [hsound.spawned_eq _ _ (List.getElem?_eq_getElem howned)]
    exact GroupTask.spawns_pairwise _ _
  rw [State.spawned, List.pairwise_filter, List.pairwise_map, List.pairwise_iff_getElem] at hpairwise
  simp only [decide_eq_true_eq] at hpairwise
  obtain ⟨hi, rfl⟩ := List.getElem?_eq_some_iff.mp hfirst
  obtain ⟨hj, rfl⟩ := List.getElem?_eq_some_iff.mp hsecond
  exact hpairwise i j hi hj hlt rfl hgroup

/-- No two dispatch tasks serve the same event and handler. -/
theorem task_unique {Value Actor Valence : Type} {self : Executor Value Actor Valence}
    {s : State Value Valence} (hsound : Sound self s) {i j : Nat} {first second : DispatchTask Value Valence}
    (hfirst : s.tasks[i]? = some first) (hsecond : s.tasks[j]? = some second)
    (hsame : second.Serves first.group first.occurrence first.entry) : i = j := by
  obtain ⟨hgroup, hoccurrence, hentry⟩ := hsame
  obtain hlt | heq | hgt := Nat.lt_trichotomy i j
  · obtain hless | ⟨_, hless⟩ := hsound.before_of_lt hfirst hsecond hgroup hlt <;> omega
  · exact heq
  · obtain hless | ⟨_, hless⟩ := hsound.before_of_lt hsecond hfirst hgroup.symm hgt <;> omega

/-- An event and a handler that takes it have their dispatch, or the loop over
the descriptors has still to come to that handler. -/
theorem served_or_pending {Value Actor Valence : Type} {self : Executor Value Actor Valence}
    {s : State Value Valence} (hsound : Sound self s) {g o k : Nat} {descriptor : HandlerDescriptor}
    {ev : Event Value} (htakes : s.Takes g o k descriptor ev) :
    (∃ (i : Nat) (task : DispatchTask Value Valence), s.tasks[i]? = some task ∧ task.Serves g o k ∧
        task.args = dispatch_args descriptor ev) ∨
      ∃ group current next, s.groups[g]? = some group ∧ group.pc = .dispatching current next ∧
        o = group.rounds.length ∧ next ≤ k := by
  obtain ⟨group, hgroup, hentry, hpulled, hmatches⟩ := htakes
  by_cases hcame : ∀ current next, group.pc = .dispatching current next →
      o = group.rounds.length → k < next
  · have hmem : (⟨g, o, k, dispatch_args descriptor ev⟩ : Spawn Value) ∈ group.spawns g :=
      GroupTask.mem_spawns_iff.mpr ⟨ev, descriptor, hpulled, hentry, hmatches, rfl, hcame⟩
    rw [← hsound.spawned_eq g group hgroup] at hmem
    obtain ⟨task, htask, hspawn⟩ := List.mem_map.mp (List.mem_filter.mp hmem).1
    obtain ⟨i, hi⟩ := List.mem_iff_getElem?.mp htask
    left
    refine ⟨i, task, hi, ?_, congrArg Spawn.args hspawn⟩
    rw [hspawn]
    exact ⟨rfl, rfl, rfl⟩
  · right
    simp only [not_forall] at hcame
    obtain ⟨current, next, hpc, hlast, hle⟩ := hcame
    exact ⟨group, current, next, hgroup, hpc, hlast, by omega⟩

/-- A checkpoint call in the trace was made by a durable named dispatch task
whose handler returned Ok, for its own event. -/
theorem coalescer_record_mem {Value Actor Valence : Type} {self : Executor Value Actor Valence}
    {s : State Value Valence} (hsound : Sound self s) {i : Nat} {name topic_name : String}
    {topic_key : Option String} {seq : Int}
    (hmem : (i, .coalescer_record name topic_name topic_key seq) ∈ s.trace) :
    ∃ task, s.tasks[i]? = some task ∧ task.pc.recorded = true ∧ task.args.is_durable = true ∧
      task.args.subscription_name = some name ∧ topic_name = task.args.topic_name ∧
      topic_key = task.args.ev.topic_key ∧ seq = task.args.ev.seq := by
  have hlt : i < s.tasks.length := hsound.logged _ hmem
  have htask := List.getElem?_eq_getElem hlt
  obtain ⟨hpc, hdurable, hname, htopic, hkey, hseq, _⟩ :=
    (hsound.ledger i _ htask).coalescer_record_mem (mem_log_iff.mpr hmem)
  exact ⟨_, htask, hpc, hdurable, hname, htopic, hkey, hseq⟩

theorem coalescer_record_of_past {Value Actor Valence : Type} {self : Executor Value Actor Valence}
    {s : State Value Valence} (hsound : Sound self s) {i : Nat} {task : DispatchTask Value Valence}
    {name : String} (htask : s.tasks[i]? = some task)
    (hpast : task.pc.recorded = true) (hdurable : task.args.is_durable = true)
    (hname : task.args.subscription_name = some name) :
    (i, .coalescer_record name task.args.topic_name task.args.ev.topic_key task.args.ev.seq) ∈ s.trace :=
  mem_log_iff.mp ((hsound.ledger i task htask).coalescer_record_of_past hpast hdurable hname)

/-- A handler invocation in the trace was made by a dispatch task, for its own
event and with the session built from it. -/
theorem invoke_mem {Value Actor Valence : Type} {self : Executor Value Actor Valence}
    {s : State Value Valence} (hsound : Sound self s) {i : Nat} {dispatch : HandlerDispatch}
    {valence : Valence} {ev : Event Value} (hmem : (i, .invoke dispatch valence ev) ∈ s.trace) :
    ∃ task, s.tasks[i]? = some task ∧ dispatch = task.args.dispatch ∧ ev = task.args.ev ∧
      Session self.toDispatchEnv task.args valence := by
  have hlt : i < s.tasks.length := hsound.logged _ hmem
  have htask := List.getElem?_eq_getElem hlt
  exact ⟨_, htask, (hsound.ledger i _ htask).invoke_mem (mem_log_iff.mpr hmem)⟩

/-- Two handlers' dispatches of one pulled event agree on the event. -/
theorem args_ev_eq {Value Actor Valence : Type} {self : Executor Value Actor Valence}
    {s : State Value Valence} (hsound : Sound self s) {i g o k : Nat} {task : DispatchTask Value Valence}
    {descriptor : HandlerDescriptor} {ev : Event Value} (htask : s.tasks[i]? = some task)
    (hserves : task.Serves g o k) (htakes : s.Takes g o k descriptor ev) :
    task.args = dispatch_args descriptor ev := by
  obtain ⟨rfl, rfl, rfl⟩ := hserves
  obtain ⟨own, ⟨group, hgroup, hentry, hpulled, _⟩, hargs⟩ := hsound.takes_of_getElem? htask
  obtain ⟨group', hgroup', hentry', hpulled', _⟩ := htakes
  cases Option.some.inj (hgroup.symm.trans hgroup')
  cases Option.some.inj (hentry.symm.trans hentry')
  rw [hargs, Option.some.inj (hpulled.symm.trans hpulled')]

end Sound

/-- What a step does to a dispatch task that exists: it stays, or takes the
turn of this step. -/
theorem Executor.Transition.task {Value Actor Valence : Type} {self : Executor Value Actor Valence}
    {s s' : State Value Valence} {action : Action Value} (htransition : self.Transition s action s')
    {i : Nat} {task : DispatchTask Value Valence} (htask : s.tasks[i]? = some task) :
    ∃ pc', s'.tasks[i]? = some { task with pc := pc' } ∧
      (pc' = task.pc ∨ ∃ turn effects, action = .dispatch i turn ∧
        Moves self.toDispatchEnv task.args task.pc turn pc' effects) := by
  cases htransition with
  | group => exact ⟨task.pc, getElem?_append_of_some htask, .inl rfl⟩
  | @dispatch j turn mover pc' effects permits hmover hmoves hpermits =>
    by_cases hij : i = j
    · subst hij
      cases Option.some.inj (hmover.symm.trans htask)
      exact ⟨pc', getElem?_set_self htask, .inr ⟨turn, effects, rfl, hmoves⟩⟩
    · refine ⟨task.pc, ?_, .inl rfl⟩
      simpa [List.getElem?_set, Ne.symm hij] using htask
  | _ => exact ⟨task.pc, htask, .inl rfl⟩

/-- Where a dispatch task comes from: it existed and stayed or took the turn of
this step, or the step spawned it. -/
theorem Executor.Transition.task_origin {Value Actor Valence : Type}
    {self : Executor Value Actor Valence} {s s' : State Value Valence} {action : Action Value}
    (htransition : self.Transition s action s') {i : Nat} {task' : DispatchTask Value Valence}
    (htask' : s'.tasks[i]? = some task') :
    (∃ task, s.tasks[i]? = some task ∧ task'.toSpawn = task.toSpawn ∧
      (task'.pc = task.pc ∨ ∃ turn effects, action = .dispatch i turn ∧
        Moves self.toDispatchEnv task.args task.pc turn task'.pc effects)) ∨
      task'.pc = .acquire := by
  cases htransition with
  | @group g turn group group' spawned =>
    obtain hold | ⟨_, hnew⟩ := getElem?_append_cases htask'
    · exact .inl ⟨task', hold, rfl, .inl rfl⟩
    · right
      cases spawned with
      | none => simp at hnew
      | some dispatch =>
        obtain ⟨_, hget⟩ := List.getElem?_eq_some_iff.mp hnew
        simp only [Option.map_some, Option.toList_some, List.getElem_singleton] at hget
        rw [← hget]
  | @dispatch j turn mover pc' effects permits hmover hmoves hpermits =>
    obtain ⟨rfl, rfl⟩ | ⟨_, hold⟩ := getElem?_set_cases htask'
    · exact .inl ⟨mover, hmover, rfl, .inr ⟨turn, effects, rfl, hmoves⟩⟩
    · exact .inl ⟨task', hold, rfl, .inl rfl⟩
  | _ => exact .inl ⟨task', htask', rfl, .inl rfl⟩

/-- What becomes of a group in a step: it stays, is new, takes the turn of
this step, or is cancelled. -/
inductive GroupChange {Value : Type} (action : Action Value) (g : Nat) (before : Option (GroupTask Value)) :
    GroupTask Value → Prop where
  | stays {group : GroupTask Value} (hgroup : before = some group) (hother : ∀ turn, action ≠ .group g turn) :
      GroupChange action g before group
  | fresh {group : GroupTask Value} (hpc : group.pc = .resuming) (hpulled : group.pulled = [])
      (hscan : group.scan = ResumeScan.of_calls group.calls) : GroupChange action g before group
  | moves {group group' : GroupTask Value} {turn : GroupTurn Value}
      {spawned : Option (Nat × DispatchArgs Value)} (hgroup : before = some group)
      (haction : action = .group g turn) (hmoves : GroupMoves group turn group' spawned) :
      GroupChange action g before group'
  | cancelled {group : GroupTask Value} (hgroup : before = some group) (haction : action = .cancel g) :
      GroupChange action g before { group with pc := .cancelled }

theorem Executor.Transition.group_change {Value Actor Valence : Type}
    {self : Executor Value Actor Valence} {s s' : State Value Valence} {action : Action Value}
    (htransition : self.Transition s action s') {g : Nat} {group' : GroupTask Value}
    (hgroup' : s'.groups[g]? = some group') : GroupChange action g s.groups[g]? group' := by
  cases htransition with
  | spawn_group =>
    obtain hold | ⟨_, hnew⟩ := getElem?_append_cases hgroup'
    · exact .stays hold fun _ heq => by cases heq
    · obtain ⟨_, hget⟩ := List.getElem?_eq_some_iff.mp hnew
      simp only [List.getElem_singleton] at hget
      rw [← hget]
      exact .fresh rfl rfl (by simp [GroupTask.calls, ResumeScan.of_calls])
  | group hgroup hmoves =>
    obtain ⟨rfl, rfl⟩ | ⟨hne, hold⟩ := getElem?_set_cases hgroup'
    · exact .moves hgroup rfl hmoves
    · refine .stays hold fun turn heq => ?_
      cases heq
      exact hne rfl
  | cancel _ hgroup _ =>
    obtain ⟨rfl, rfl⟩ | ⟨_, hold⟩ := getElem?_set_cases hgroup'
    · exact .cancelled hgroup rfl
    · exact .stays hold fun _ heq => by cases heq
  | _ => exact .stays hgroup' fun _ heq => by cases heq

/-- A turn of a subscription task changes no other group. -/
theorem Executor.step_group_cases {Value Actor Valence : Type} {self : Executor Value Actor Valence}
    {s s' : State Value Valence} {g : Nat} {turn : GroupTurn Value}
    (hstep : self.step s (.group g turn) = some s') :
    ∃ group group' spawned, s.groups[g]? = some group ∧ GroupMoves group turn group' spawned ∧
      s'.groups = s.groups.set g group' ∧ s'.groups[g]? = some group' ∧ s'.unspawned = s.unspawned ∧
      s'.aborted = s.aborted := by
  cases transition_of_step hstep with
  | group hgroup hmoves => exact ⟨_, _, _, hgroup, hmoves, rfl, getElem?_set_self hgroup, rfl, rfl⟩

theorem Executor.Transition.aborted_eq {Value Actor Valence : Type} {self : Executor Value Actor Valence}
    {s s' : State Value Valence} {action : Action Value} (htransition : self.Transition s action s')
    (haction : action ≠ .abort) : s'.aborted = s.aborted := by
  cases htransition <;> first | rfl | exact absurd rfl haction

/-- What becomes of a group that exists: it stays, takes the turn of this step,
or is cancelled while it waits. -/
theorem Executor.Transition.group_after {Value Actor Valence : Type} {self : Executor Value Actor Valence}
    {s s' : State Value Valence} {action : Action Value} (htransition : self.Transition s action s')
    {g : Nat} {group : GroupTask Value} (hgroup : s.groups[g]? = some group) :
    ∃ group', s'.groups[g]? = some group' ∧ (group' = group ∨
      (∃ turn spawned, action = .group g turn ∧ GroupMoves group turn group' spawned) ∨
      (group' = { group with pc := .cancelled } ∧ (group.pc = .resuming ∨ group.pc = .polling))) := by
  cases htransition with
  | spawn_group => exact ⟨group, getElem?_append_of_some hgroup, .inl rfl⟩
  | @group mover turn before after spawned hmover hmoves =>
    by_cases hsame : g = mover
    · subst hsame
      cases Option.some.inj (hmover.symm.trans hgroup)
      exact ⟨after, getElem?_set_self hgroup, .inr (.inl ⟨turn, spawned, rfl, hmoves⟩)⟩
    · exact ⟨group, (List.getElem?_set_ne (Ne.symm hsame)).trans hgroup, .inl rfl⟩
  | @cancel cancelled before _ hcancelled hawaits =>
    by_cases hsame : g = cancelled
    · subst hsame
      cases Option.some.inj (hcancelled.symm.trans hgroup)
      exact ⟨_, getElem?_set_self hgroup, .inr (.inr ⟨rfl, hawaits⟩)⟩
    · exact ⟨group, (List.getElem?_set_ne (Ne.symm hsame)).trans hgroup, .inl rfl⟩
  | _ => exact ⟨group, hgroup, .inl rfl⟩

theorem Moves.settled {Value Actor Valence : Type} {env : DispatchEnv Value Actor Valence}
    {args : DispatchArgs Value} {pc pc' : Pc Valence} {turn : Turn} {effects : List (Effect Value Valence)}
    (hmoves : Moves env args pc turn pc' effects) (hsettled : pc.settled = true) : pc'.settled = true := by
  cases hmoves <;> first | rfl | cases hsettled

/-- A settled dispatch stays settled. -/
theorem Executor.Transition.settled_task {Value Actor Valence : Type} {self : Executor Value Actor Valence}
    {s s' : State Value Valence} {action : Action Value} (htransition : self.Transition s action s')
    {task : DispatchTask Value Valence} (htask : task ∈ s.tasks) (hsettled : task.pc.settled = true) :
    ∃ pc', { task with pc := pc' } ∈ s'.tasks ∧ pc'.settled = true := by
  obtain ⟨i, hi⟩ := List.mem_iff_getElem?.mp htask
  obtain ⟨pc', htask', rfl | ⟨_, _, _, hmoves⟩⟩ := htransition.task hi
  · exact ⟨task.pc, List.mem_of_getElem? htask', hsettled⟩
  · exact ⟨pc', List.mem_of_getElem? htask', hmoves.settled hsettled⟩

end photon_valence_identity.executor
