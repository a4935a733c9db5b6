import PhotonValence.Executor.Window

open photon_backend valence transition slots

namespace photon_valence_identity.executor

/-- What the stream of a group hands out of the events published before the
group subscribed. -/
def GroupTask.replays {Value : Type} (group : GroupTask Value) (published : List (Event Value)) :
    List (Event Value) :=
  published.filter fun ev =>
    admits group.topic_name group.topic_key_filter ev && delivers_retained group.after_seq ev

/-- What it hands out of the events published afterwards, under the rule `live`
for these. -/
def GroupTask.follows {Value : Type} (live : Option Int → Event Value → Bool) (group : GroupTask Value)
    (published : List (Event Value)) : List (Event Value) :=
  published.filter fun ev =>
    admits group.topic_name group.topic_key_filter ev && live group.after_seq ev

/-- Group `g` has subscribed, and `since` was published afterwards. -/
structure Subscribed {Value Valence : Type} (live : Option Int → Event Value → Bool) (s : Live Value Valence)
    (g : Nat) (since : List (Event Value)) (group : GroupTask Value) (stream : Subscription Value) : Prop where
  group_eq : s.running.groups[g]? = some group
  not_resuming : group.pc ≠ .resuming
  stream_eq : s.broker.streams g = some stream
  topic_eq : stream.topic_name = group.topic_name
  filter_eq : stream.topic_key_filter = group.topic_key_filter
  after_eq : stream.after_seq = group.after_seq
  published_eq : s.broker.published = stream.retained ++ since
  delivered_eq : group.pulled ++ stream.pending = group.replays stream.retained ++ group.follows live since

namespace Subscribed

section

variable {Value Actor Valence : Type} {live : Option Int → Event Value → Bool}
  {self : Executor Value Actor Valence} {s s' : Live Value Valence} {g other : Nat}
  {since : List (Event Value)} {group : GroupTask Value} {stream : Subscription Value}

theorem of_subscribe (hfresh : ∀ (g : Nat) (group : GroupTask Value), s.running.groups[g]? = some group →
      group.pc = .resuming → group.pulled = [])
    (hstep : live_step live self s (.subscribe g) = some s') :
    ∃ group stream, Subscribed live s' g [] group stream := by
  obtain ⟨group, running, hgroup, hrun, rfl⟩ := live_step_subscribe hstep
  obtain ⟨_, group', _, hgroup', hmoves, _, hafter, _⟩ := Executor.step_group_cases hrun
  cases Option.some.inj (hgroup.symm.trans hgroup')
  cases hmoves with
  | subscribe hpc =>
    refine ⟨_, _, hafter, nofun, Broker.subscribe_streams_self _ _ _ _ _, rfl, rfl, rfl,
      by simp [Broker.subscribe, Broker.opened], ?_⟩
    have hnone := hfresh g group hgroup hpc
    simp only [GroupTask.pulled, GroupTask.current, hpc, List.append_nil] at hnone ⊢
    rw [hnone]
    exact (List.append_nil _).symm

theorem publish (hsubscribed : Subscribed live s g since group stream) (ev : Event Value)
    (late : List (Event Value)) :
    Subscribed live { s with broker := s.broker.publish live ev, late } g (since ++ [ev]) group
      (stream.push live ev) := by
  obtain ⟨htopic, hfilter, hafter, hretained⟩ : (stream.push live ev).topic_name = stream.topic_name ∧ _ :=
    stream.push_same ev
  refine ⟨hsubscribed.group_eq, hsubscribed.not_resuming, ?_, htopic.trans hsubscribed.topic_eq,
    hfilter.trans hsubscribed.filter_eq, hafter.trans hsubscribed.after_eq, ?_, ?_⟩
  · simp [Broker.publish, hsubscribed.stream_eq]
  · simp [Broker.publish, hsubscribed.published_eq, hretained]
  · rw [stream.push_pending_eq, hsubscribed.topic_eq, hsubscribed.filter_eq, hsubscribed.after_eq,
      ← List.append_assoc, hsubscribed.delivered_eq, List.append_assoc, GroupTask.follows, GroupTask.follows,
      List.filter_append, hretained]

theorem subscribe (hsubscribed : Subscribed live s g since group stream)
    (hstep : live_step live self s (.subscribe other) = some s') : Subscribed live s' g since group stream := by
  obtain ⟨_, running, hother, hrun, rfl⟩ := live_step_subscribe hstep
  obtain ⟨_, group', _, hother', hmoves, hgroups, _⟩ := Executor.step_group_cases hrun
  have hne : g ≠ other := by
    rintro rfl
    cases Option.some.inj (hsubscribed.group_eq.symm.trans hother')
    cases hmoves with
    | subscribe hpc => exact hsubscribed.not_resuming hpc
  refine ⟨?_, hsubscribed.not_resuming, (Broker.subscribe_streams_ne _ hne _ _ _).trans hsubscribed.stream_eq,
    hsubscribed.topic_eq, hsubscribed.filter_eq, hsubscribed.after_eq, hsubscribed.published_eq,
    hsubscribed.delivered_eq⟩
  rw [hgroups, List.getElem?_set_ne hne.symm]
  exact hsubscribed.group_eq

theorem deliver (hsubscribed : Subscribed live s g since group stream)
    (hstep : live_step live self s (.deliver other) = some s') :
    ∃ group' stream', Subscribed live s' g since group' stream' := by
  obtain ⟨ev, broker, running, hnext, hrun, rfl⟩ := live_step_deliver hstep
  obtain ⟨puller, group', _, hpuller, hmoves, hgroups, hafter, _⟩ := Executor.step_group_cases hrun
  obtain ⟨source, rest, hsource, hpending, hpublished, hself, hothers⟩ := Broker.next_eq_some hnext
  by_cases hsame : g = other
  · subst hsame
    cases Option.some.inj (hsubscribed.group_eq.symm.trans hpuller)
    cases Option.some.inj (hsubscribed.stream_eq.symm.trans hsource)
    have hpulled := hmoves.pulled_pull
    cases hmoves with
    | pull _ hpc =>
      refine ⟨_, _, hafter, nofun, hself, hsubscribed.topic_eq, hsubscribed.filter_eq,
        hsubscribed.after_eq, hpublished.trans hsubscribed.published_eq, ?_⟩
      rw [hpulled, List.append_assoc, List.singleton_append, ← hpending]
      exact hsubscribed.delivered_eq
  · refine ⟨group, stream, ?_, hsubscribed.not_resuming, (hothers g hsame).trans hsubscribed.stream_eq,
      hsubscribed.topic_eq, hsubscribed.filter_eq, hsubscribed.after_eq,
      hpublished.trans hsubscribed.published_eq, hsubscribed.delivered_eq⟩
    rw [hgroups, List.getElem?_set_ne (Ne.symm hsame)]
    exact hsubscribed.group_eq

theorem run {action : Action Value} (hsubscribed : Subscribed live s g since group stream)
    (hstep : live_step live self s (.run action) = some s') :
    ∃ group', Subscribed live s' g since group' stream := by
  obtain ⟨running, hlocal, hrun, rfl⟩ := live_step_run hstep
  obtain ⟨group', hgroup', hchange⟩ :=
    (Executor.transition_of_step hrun).group_after hsubscribed.group_eq
  have hsame : group'.topic_name = group.topic_name ∧
      group'.topic_key_filter = group.topic_key_filter ∧ group'.after_seq = group.after_seq ∧
      group'.pulled = group.pulled ∧ group'.pc ≠ .resuming := by
    obtain rfl | ⟨turn, spawned, rfl, hmoves⟩ | ⟨rfl, hawaits⟩ := hchange
    · exact ⟨rfl, rfl, rfl, rfl, hsubscribed.not_resuming⟩
    · obtain ⟨htopic, hfilter, _⟩ := hmoves.same_group
      obtain ⟨hpulled, ⟨hidle, _⟩ | ⟨_, hopen, hafter⟩⟩ := hmoves.of_local hlocal
      · exact absurd hidle hsubscribed.not_resuming
      · refine ⟨htopic, hfilter, hafter, hpulled, fun hpc => ?_⟩
        simp [GroupTask.is_open, hpc] at hopen
    · obtain hpc | hpc := hawaits
      · exact absurd hpc hsubscribed.not_resuming
      · exact ⟨rfl, rfl, rfl, by simp [GroupTask.pulled, GroupTask.current, hpc], by simp⟩
  obtain ⟨htopic, hfilter, hafter, hpulled, hpc⟩ := hsame
  refine ⟨group', hgroup', hpc, hsubscribed.stream_eq, hsubscribed.topic_eq.trans htopic.symm,
    hsubscribed.filter_eq.trans hfilter.symm, hsubscribed.after_eq.trans hafter.symm, hsubscribed.published_eq, ?_⟩
  rw [hpulled, hsubscribed.delivered_eq, GroupTask.replays, GroupTask.replays, GroupTask.follows,
    GroupTask.follows, htopic, hfilter, hafter]

/-- Every step keeps the account of what the stream of the group hands out. -/
theorem step {action : LiveAction Value} (hsubscribed : Subscribed live s g since group stream)
    (hstep : live_step live self s action = some s') :
    ∃ since' group' stream', Subscribed live s' g since' group' stream' := by
  cases action with
  | publish ev =>
    cases hstep
    exact ⟨_, _, _, hsubscribed.publish ev _⟩
  | subscribe => exact ⟨_, _, _, hsubscribed.subscribe hstep⟩
  | deliver =>
    obtain ⟨group', stream', hsubscribed'⟩ := hsubscribed.deliver hstep
    exact ⟨_, group', stream', hsubscribed'⟩
  | run =>
    obtain ⟨group', hsubscribed'⟩ := hsubscribed.run hstep
    exact ⟨_, group', _, hsubscribed'⟩

/-- A dispatch of the group is for the event that its stream handed out at that
position. -/
theorem delivered_at (hsubscribed : Subscribed live s g since group stream) (hsound : Sound self s.running)
    {task : DispatchTask Value Valence} (htask : task ∈ s.running.tasks) (howner : task.group = g) :
    (group.replays stream.retained ++ group.follows live since)[task.occurrence]? = some task.args.ev := by
  obtain ⟨_, ⟨own, hown, _, hpulled, _⟩, _⟩ := hsound.takes_of_task htask
  rw [howner, hsubscribed.group_eq] at hown
  cases hown
  rw [← hsubscribed.delivered_eq]
  exact getElem?_append_of_some hpulled

end

end Subscribed

/-- A group has no stream and has pulled nothing, or has subscribed. -/
inductive Follows {Value Valence : Type} (live : Option Int → Event Value → Bool) (s : Live Value Valence)
    (g : Nat) : Prop where
  | waiting (hstream : s.broker.streams g = none)
      (hpulled : ∀ group, s.running.groups[g]? = some group →
        (group.pc = .resuming ∨ group.pc = .cancelled) ∧ group.pulled = [])
  | subscribed {since : List (Event Value)} {group : GroupTask Value} {stream : Subscription Value}
      (hsubscribed : Subscribed live s g since group stream)

namespace Follows

variable {Value Actor Valence : Type} {live : Option Int → Event Value → Bool}
  {self : Executor Value Actor Valence} {s s' : Live Value Valence} {g : Nat}

/-- A step that is not its own subscribe call gives a group without a stream
none, and nothing to pull. -/
theorem waiting_step {action : LiveAction Value} (hstream : s.broker.streams g = none)
    (hpulled : ∀ group, s.running.groups[g]? = some group →
      (group.pc = .resuming ∨ group.pc = .cancelled) ∧ group.pulled = [])
    (hother : action ≠ .subscribe g) (hstep : live_step live self s action = some s') : Follows live s' g := by
  refine .waiting ?_ fun group' hgroup' => ?_
  · cases action with
    | publish ev =>
      cases hstep
      simp [Broker.publish, hstream]
    | subscribe j =>
      obtain ⟨_, _, _, _, rfl⟩ := live_step_subscribe hstep
      exact (Broker.subscribe_streams_ne _ (fun heq => hother (by rw [heq])) _ _ _).trans hstream
    | deliver j =>
      obtain ⟨_, _, _, hnext, _, rfl⟩ := live_step_deliver hstep
      obtain ⟨stream, _, hsome, _, _, _, hothers⟩ := Broker.next_eq_some hnext
      have hne : g ≠ j := by
        rintro rfl
        cases hstream.symm.trans hsome
      exact (hothers g hne).trans hstream
    | run =>
      obtain ⟨_, _, _, rfl⟩ := live_step_run hstep
      exact hstream
  · obtain hsame | ⟨own, hown, hsubscribes⟩ := live_step_running hstep
    · rw [hsame] at hgroup'
      exact hpulled group' hgroup'
    cases (Executor.transition_of_step hown).group_change hgroup' with
    | stays hgroup => exact hpulled group' hgroup
    | fresh hpc hnone => exact ⟨.inl hpc, hnone⟩
    | @cancelled group hgroup =>
      obtain ⟨hpc, hnone⟩ := hpulled group hgroup
      refine ⟨.inr rfl, ?_⟩
      obtain hpc | hpc := hpc <;> simpa [GroupTask.pulled, GroupTask.current, hpc] using hnone
    | moves hgroup haction hmoves =>
      obtain ⟨hidle, hnone⟩ := hpulled _ hgroup
      cases hmoves with
      | lookup _ hpc => exact ⟨.inl hpc, hnone⟩
      | subscribe => exact absurd (hsubscribes g haction) hother
      | finish hpc | stream_error hpc | pull _ hpc | round_over hpc | pass_over hpc | spawn hpc =>
        simp [hpc] at hidle

theorem step {action : LiveAction Value} (hfollows : Follows live s g)
    (hfresh : ∀ (g : Nat) (group : GroupTask Value), s.running.groups[g]? = some group →
      group.pc = .resuming → group.pulled = [])
    (hstep : live_step live self s action = some s') : Follows live s' g := by
  cases hfollows with
  | waiting hstream hpulled =>
    by_cases hown : action = .subscribe g
    · subst hown
      obtain ⟨_, _, hsubscribed⟩ := Subscribed.of_subscribe hfresh hstep
      exact .subscribed hsubscribed
    · exact waiting_step hstream hpulled hown hstep
  | subscribed hsubscribed =>
    obtain ⟨_, _, _, hsubscribed'⟩ := hsubscribed.step hstep
    exact .subscribed hsubscribed'

/-- In every state of a live system every group follows its stream. -/
theorem of_steps {retained : List (Event Value)} {ok : Live Value Valence → LiveAction Value → Prop}
    (hrun : Steps (live_step live self) ok (live_start self retained) s) (g : Nat) : Follows live s g := by
  apply hrun.invariant_along
  · intro before action after hbefore hfollows _ hstep
    have hreachable : self.Reachable anyStep before.running := live_reachable hbefore
    exact hfollows.step hreachable.resuming_pulled hstep
  · exact .waiting rfl (by simp [live_start, Executor.start])

end Follows

/-- Whatever a broker delivers live: until it has subscribed, a group
dispatches nothing. Afterwards an event is dispatched to a handler of it, an
ephemeral one included, either because it was published after the group
subscribed, or because all durable handlers of the group have a name and a
checkpoint and one of these lies before the event. -/
theorem ephemeral_from_now_unless_resumed {Value Actor Valence : Type} {self : Executor Value Actor Valence}
    {live : Option Int → Event Value → Bool} {retained : List (Event Value)} {s : Live Value Valence}
    (hrun : Steps (live_step live self) anyStep (live_start self retained) s) (g : Nat) :
    (s.broker.streams g = none → ∀ task ∈ s.running.tasks, task.group ≠ g) ∧
    ∀ stream, s.broker.streams g = some stream →
      ∃ group since, s.running.groups[g]? = some group ∧ s.broker.published = stream.retained ++ since ∧
        (∀ ev, ev ∈ group.replays stream.retained ↔ ev ∈ stream.retained ∧
          admits group.topic_name group.topic_key_filter ev = true ∧ Covers group ev) ∧
        ∀ task ∈ s.running.tasks, task.group = g →
          (∃ o, task.occurrence = (group.replays stream.retained).length + o ∧
            (group.follows live since)[o]? = some task.args.ev) ∨
          (group.replays stream.retained)[task.occurrence]? = some task.args.ev := by
  have hreached := live_reachable hrun
  have hfollows := Follows.of_steps hrun g
  constructor
  · intro hnone task htask howner
    cases hfollows with
    | waiting _ hpulled =>
      obtain ⟨_, ⟨group, hgroup, _, htaken, _⟩, _⟩ := hreached.sound.takes_of_task htask
      rw [howner] at hgroup
      rw [(hpulled group hgroup).2] at htaken
      cases htaken
    | subscribed hsubscribed => cases hnone.symm.trans hsubscribed.stream_eq
  · intro stream hstream
    cases hfollows with
    | waiting hnone => cases hnone.symm.trans hstream
    | @subscribed since group _ hsubscribed =>
      cases Option.some.inj (hstream.symm.trans hsubscribed.stream_eq)
      refine ⟨group, since, hsubscribed.group_eq, hsubscribed.published_eq, ?_, ?_⟩
      · intro ev
        have hscan := hreached.scanned g group hsubscribed.group_eq
        rw [GroupTask.replays, List.mem_filter, Bool.and_eq_true, decide_eq_true_eq,
          delivers_retained_iff_covers hscan]
      · intro task htask howner
        have hdelivered := hsubscribed.delivered_at hreached.sound htask howner
        obtain hold | ⟨hle, hnew⟩ := getElem?_append_cases hdelivered
        · exact .inr hold
        · exact .inl ⟨task.occurrence - (group.replays stream.retained).length, by omega, hnew⟩

/-- The rule of a broker that delivers live whatever is published. -/
def every_live_event (_ : Option Int) (_ : Event ActorJson) : Bool := true

/-- The durable handler has checkpoint 5 when the group resumes. -/
def resuming_mixed : List (LiveAction ActorJson) :=
  [.run .spawn_group, .run (.group 0 (.lookup (.ok (some 5)))), .run (.group 0 (.lookup (.ok none))),
    .subscribe 0, .deliver 0, .run (.group 0 .spawn), .run (.group 0 .spawn)]

def resumed_mixed : Live ActorJson Actor :=
  (execute (live_step every_live_event mixed_executor) (live_start mixed_executor [orders_event none 7])
    resuming_mixed).get rfl

theorem resumed_mixed_reached :
    Steps (live_step every_live_event mixed_executor) NotAborted (live_start mixed_executor [orders_event none 7])
      resumed_mixed :=
  execute_steps resuming_mixed (by decide) (Option.some_get _).symm

/-- Everything dispatched so far is retained and past the checkpoint. -/
theorem ephemeral_from_now_unless_resumed_mixed :
    ∃ stream group, resumed_mixed.broker.streams 0 = some stream ∧
      resumed_mixed.running.groups[0]? = some group ∧
      ∀ task ∈ resumed_mixed.running.tasks, task.group = 0 →
        (∃ o, task.occurrence = (group.replays stream.retained).length + o ∧
          (group.follows every_live_event [])[o]? = some task.args.ev) ∨
        (group.replays stream.retained)[task.occurrence]? = some task.args.ev := by
  obtain ⟨stream, hstream, hretained⟩ : ∃ stream, resumed_mixed.broker.streams 0 = some stream ∧
      stream.retained = resumed_mixed.broker.published := ⟨_, rfl, rfl⟩
  obtain ⟨group, since, hgroup, hpublished, _, htasks⟩ :=
    (ephemeral_from_now_unless_resumed (resumed_mixed_reached.weaken fun _ _ _ => trivial) 0).2 stream hstream
  have hnone : since = [] := by
    rw [hretained] at hpublished
    exact List.append_right_eq_self.mp hpublished.symm
  subst hnone
  exact ⟨stream, group, hstream, hgroup, htasks⟩

/-- The retained event 7 is dispatched to the ephemeral handler, while nothing
has been published since the group subscribed. -/
theorem historic_event_reaches_ephemeral :
    Steps (live_step every_live_event mixed_executor) NotAborted (live_start mixed_executor [orders_event none 7])
        resumed_mixed ∧
      resumed_mixed.broker.published = [orders_event none 7] ∧
      ∃ task ∈ resumed_mixed.running.tasks,
        task.args = dispatch_args (orders_handler (some "audit") none .Ephemeral 1) (orders_event none 7) := by
  have htask : resumed_mixed.running.tasks[1]? = some ⟨⟨0, 0, 1, dispatch_args
      (orders_handler (some "audit") none .Ephemeral 1) (orders_event none 7)⟩, .acquire⟩ := rfl
  exact ⟨resumed_mixed_reached, rfl, _, List.mem_of_getElem? htask, rfl⟩

end photon_valence_identity.executor
