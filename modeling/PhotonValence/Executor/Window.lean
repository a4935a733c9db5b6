import PhotonValence.Executor.Live
import PhotonValence.Transition.Guard

open photon_backend valence register transition slots

namespace photon_valence_identity.executor

/-- Every durable handler of the group has a name and a checkpoint, and one of
the checkpoints lies before the event. -/
def Covers {Value : Type} (group : GroupTask Value) (ev : Event Value) : Prop :=
  AllCheckpointed group.calls ∧ ∃ call ∈ group.calls, call.1.mode = .Durable ∧
    ∃ c, checkpoint call.1 call.2 = some c ∧ c < ev.seq

/-- When a group subscribes, what was published for it since `start_executor`
returned comes after a checkpoint; and so does what is published for a group
that has resumed from checkpoints. -/
def LateCovered {Value Valence : Type} (s : Live Value Valence) : LiveAction Value → Prop
  | .subscribe g => ∀ group ∈ s.running.groups[g]?, ∀ ev ∈ s.late,
    admits group.topic_name group.topic_key_filter ev = true → Covers group ev
  | .publish ev => s.running.unspawned = [] → ∀ (g : Nat) (group : GroupTask Value),
    s.running.groups[g]? = some group → group.is_open = true →
    admits group.topic_name group.topic_key_filter ev = true → AllCheckpointed group.calls →
    (∃ call ∈ group.calls, call.1.mode = .Durable) → Covers group ev
  | _ => True

/-- Of the late events that belong to an open stream none is dropped: they have
been pulled or are queued, in the order they were published. -/
def Live.Kept {Value Valence : Type} (s : Live Value Valence) : Prop :=
  ∀ (g : Nat) (group : GroupTask Value) (stream : Subscription Value), s.running.groups[g]? = some group →
    group.is_open = true → s.broker.streams g = some stream →
    (s.late.filter (admits group.topic_name group.topic_key_filter)).Sublist (group.pulled ++ stream.pending)

/-- The subscription task has handed on everything its stream holds. -/
def Live.Drained {Value Valence : Type} (s : Live Value Valence) (g : Nat) : Prop :=
  ∃ group stream, s.running.groups[g]? = some group ∧ group.pc = .polling ∧
    s.broker.streams g = some stream ∧ stream.pending = []

/-- No late event is lost between the return of `start_executor` and the
subscribe calls: none is dropped from an open stream, and once the stream is
drained each has been pulled and dispatched to every handler of the group that
takes it. -/
structure NoWindow {Value Valence : Type} (s : Live Value Valence) : Prop where
  kept : s.Kept
  dispatched : ∀ (g : Nat) (group : GroupTask Value), s.running.groups[g]? = some group → s.Drained g →
    ∀ ev ∈ s.late, ∀ (k : Nat) (h : HandlerDescriptor), group.handlers[k]? = some h →
      h.matches_event ev.topic_name ev.topic_key = true →
      ev ∈ group.pulled ∧ ∃ task ∈ s.running.tasks, task.group = g ∧ task.entry = k ∧
        task.args = dispatch_args h ev

/-- The turns in which a subscription task hands on what its stream holds. -/
def OwnTurns {Value Valence : Type} (g : Nat) (_ : Live Value Valence) (action : LiveAction Value) : Prop :=
  action = .deliver g ∨ action = .run (.group g .spawn)

theorem delivers_retained_iff_covers {Value : Type} {group : GroupTask Value}
    (hscan : group.scan = ResumeScan.of_calls group.calls) (ev : Event Value) :
    delivers_retained group.after_seq ev ↔ Covers group ev := by
  rw [GroupTask.after_seq, hscan]
  constructor
  · rintro ⟨a, ha, hlt⟩
    obtain ⟨hall, call, hcall, hmode, hcheckpoint⟩ := checkpointed_of_result ha
    exact ⟨hall, call, hcall, hmode, a, hcheckpoint, hlt⟩
  · rintro ⟨hall, call, hcall, hmode, c, hcheckpoint, hlt⟩
    obtain ⟨a, ha, hle⟩ := result_le_checkpoint hall hcall hmode hcheckpoint
    exact ⟨a, ha, by omega⟩

theorem delivers_live_iff_covers {Value : Type} {group : GroupTask Value}
    (hscan : group.scan = ResumeScan.of_calls group.calls) (ev : Event Value) :
    delivers_live group.after_seq ev ↔
      (AllCheckpointed group.calls → (∃ call ∈ group.calls, call.1.mode = .Durable) → Covers group ev) := by
  constructor
  · rintro hlive hall ⟨call, hcall, hmode⟩
    obtain ⟨name, c, hname, hanswer⟩ := hall call hcall hmode
    obtain ⟨a, ha, _⟩ := result_le_checkpoint hall hcall hmode (checkpoint_eq_some_iff.mpr ⟨name, hname, hanswer⟩)
    rw [← delivers_retained_iff_covers hscan]
    have hafter : group.after_seq = some a := by rw [GroupTask.after_seq, hscan, ha]
    exact ⟨a, hafter, hlive a hafter⟩
  · intro hcovers a hafter
    have hresult : (ResumeScan.of_calls group.calls).result = some a := by
      rw [← hscan]
      exact hafter
    obtain ⟨hall, call, hcall, hmode, _⟩ := checkpointed_of_result hresult
    obtain ⟨b, hb, hlt⟩ := (delivers_retained_iff_covers hscan ev).mpr (hcovers hall ⟨call, hcall, hmode⟩)
    cases Option.some.inj (hafter.symm.trans hb)
    exact hlt

namespace Streaming

theorem kept_publish {Value Actor Valence : Type} {self : Executor Value Actor Valence}
    {s s' : Live Value Valence} {ev : Event Value} (hstreaming : Streaming self s)
    (hcovered : LateCovered s (.publish ev)) (hkept : s.Kept)
    (hstep : live_step live_after_resume self s (.publish ev) = some s') : s'.Kept := by
  cases hstep
  intro g group stream' hgroup hopen hstream'
  obtain ⟨stream, hstream, rfl⟩ := Option.map_eq_some_iff.mp hstream'
  have hbefore := hkept g group stream hgroup hopen hstream
  have hgrown : (group.pulled ++ stream.pending).Sublist (group.pulled ++ (stream.push live_after_resume ev).pending) :=
    (List.Sublist.refl _).append (stream.pending_sublist_push ev)
  obtain ⟨hidle, _⟩ | ⟨_, stream', hstream', hfeeds⟩ := hstreaming.fed g group hgroup
  · simp [GroupTask.is_open, hidle] at hopen
  cases Option.some.inj (hstream.symm.trans hstream')
  by_cases hlate : s.running.unspawned.isEmpty = true
  · simp only [hlate, if_true]
    rw [List.filter_append]
    by_cases hadmits : admits group.topic_name group.topic_key_filter ev = true
    · have hlive : live_after_resume stream.after_seq ev = true := by
        rw [live_after_resume, decide_eq_true_eq, hfeeds.after_eq,
          delivers_live_iff_covers (hstreaming.scanned g group hgroup)]
        exact hcovered (List.isEmpty_iff.mp hlate) g group hgroup hopen hadmits
      have hpending := stream.push_pending (by rw [hfeeds.topic_eq, hfeeds.filter_eq, hadmits]) hlive
      rw [hpending, ← List.append_assoc]
      exact hbefore.append List.filter_sublist
    · have hnone : [ev].filter (admits group.topic_name group.topic_key_filter) = [] := by
        simp [hadmits]
      rw [hnone, List.append_nil]
      exact hbefore.trans hgrown
  · simp only [hlate]
    exact hbefore.trans hgrown

theorem kept_subscribe {Value Actor Valence : Type} {self : Executor Value Actor Valence}
    {s s' : Live Value Valence} {g : Nat} (hstreaming : Streaming self s)
    (hcovered : LateCovered s (.subscribe g)) (hkept : s.Kept)
    (hstep : live_step live_after_resume self s (.subscribe g) = some s') : s'.Kept := by
  obtain ⟨group, running, hgroup, hrun, rfl⟩ := live_step_subscribe hstep
  obtain ⟨_, group', _, hgroup', hmoves, hgroups, _⟩ := Executor.step_group_cases hrun
  cases Option.some.inj (hgroup.symm.trans hgroup')
  intro j other stream hother hopen hstream
  rw [hgroups] at hother
  obtain ⟨rfl, rfl⟩ | ⟨hne, hold⟩ := getElem?_set_cases hother
  · cases hmoves with
    | subscribe =>
      rw [Broker.subscribe_streams_self] at hstream
      cases hstream
      have hretained : s.late.filter (admits group.topic_name group.topic_key_filter) =
          s.late.filter fun ev =>
            admits group.topic_name group.topic_key_filter ev && delivers_retained group.after_seq ev := by
        apply List.filter_congr
        intro ev hev
        cases hadmits : admits group.topic_name group.topic_key_filter ev with
        | false => rfl
        | true =>
          have hcovers := hcovered group hgroup ev hev hadmits
          rw [← delivers_retained_iff_covers (hstreaming.scanned j group hgroup)] at hcovers
          simp [hcovers]
      rw [hretained]
      exact (hstreaming.late_sublist.filter _).trans (List.sublist_append_right _ _)
  · rw [Broker.subscribe_streams_ne _ hne] at hstream
    exact hkept j other stream hold hopen hstream

theorem kept_deliver {Value Actor Valence : Type} {self : Executor Value Actor Valence}
    {s s' : Live Value Valence} {g : Nat} (hkept : s.Kept)
    (hstep : live_step live_after_resume self s (.deliver g) = some s') : s'.Kept := by
  obtain ⟨ev, broker, running, hnext, hrun, rfl⟩ := live_step_deliver hstep
  obtain ⟨group, group', _, hgroup, hmoves, hgroups, _⟩ := Executor.step_group_cases hrun
  obtain ⟨stream, rest, hstream, hpending, _, hself, hothers⟩ := Broker.next_eq_some hnext
  intro j other stream' hother hopen hstream'
  rw [hgroups] at hother
  obtain ⟨rfl, rfl⟩ | ⟨hne, hold⟩ := getElem?_set_cases hother
  · have hpulled := hmoves.pulled_pull
    cases Option.some.inj (hself.symm.trans hstream')
    cases hmoves with
    | pull _ hpc =>
      have hbefore := hkept j group stream hgroup (by simp [GroupTask.is_open, hpc]) hstream
      rw [hpulled, List.append_assoc, List.singleton_append, ← hpending]
      exact hbefore
  · rw [hothers j hne] at hstream'
    exact hkept j other stream' hold hopen hstream'

theorem kept_run {Value Actor Valence : Type} {self : Executor Value Actor Valence}
    {s s' : Live Value Valence} {action : Action Value} (hkept : s.Kept)
    (hstep : live_step live_after_resume self s (.run action) = some s') : s'.Kept := by
  obtain ⟨running, hlocal, hrun, rfl⟩ := live_step_run hstep
  intro g group' stream hgroup' hopen hstream
  cases (Executor.transition_of_step hrun).group_change hgroup' with
  | stays hgroup => exact hkept g group' stream hgroup hopen hstream
  | fresh hpc => simp [GroupTask.is_open, hpc] at hopen
  | cancelled => cases hopen
  | @moves group _ _ _ hgroup haction hmoves =>
    subst haction
    obtain ⟨htopic, hfilter, _⟩ := hmoves.same_group
    obtain ⟨hpulled, ⟨_, hidle⟩ | ⟨hbefore, _⟩⟩ := hmoves.of_local hlocal
    · simp [GroupTask.is_open, hidle] at hopen
    · rw [hpulled, htopic, hfilter]
      exact hkept g group stream hgroup hbefore hstream

/-- Late events are kept by every step that the guard admits. -/
theorem kept_step {Value Actor Valence : Type} {self : Executor Value Actor Valence}
    {s s' : Live Value Valence} {action : LiveAction Value} (hstreaming : Streaming self s)
    (hcovered : LateCovered s action) (hkept : s.Kept) (hstep : live_step live_after_resume self s action = some s') :
    s'.Kept := by
  cases action with
  | publish => exact hstreaming.kept_publish hcovered hkept hstep
  | subscribe => exact hstreaming.kept_subscribe hcovered hkept hstep
  | deliver => exact kept_deliver hkept hstep
  | run => exact kept_run hkept hstep

/-- A drained group has dispatched every late event to each of its handlers
that takes it. -/
theorem dispatched {Value Actor Valence : Type} {self : Executor Value Actor Valence}
    {s : Live Value Valence} (hstreaming : Streaming self s) (hkept : s.Kept) {g k : Nat}
    {group : GroupTask Value} (hgroup : s.running.groups[g]? = some group) (hdrained : s.Drained g)
    {ev : Event Value} (hev : ev ∈ s.late) {h : HandlerDescriptor} (hh : group.handlers[k]? = some h)
    (hmatches : h.matches_event ev.topic_name ev.topic_key = true) :
    ev ∈ group.pulled ∧ ∃ task ∈ s.running.tasks, task.group = g ∧ task.entry = k ∧
      task.args = dispatch_args h ev := by
  obtain ⟨drained, stream, hdrained, hpolling, hstream, hempty⟩ := hdrained
  cases Option.some.inj (hgroup.symm.trans hdrained)
  obtain ⟨htopic, hfilter⟩ := hstreaming.sound.topicKey_eq (List.mem_of_getElem? hgroup)
    (List.mem_of_getElem? hh)
  have hadmits : admits group.topic_name group.topic_key_filter ev = true := by
    obtain ⟨hsame, hkey⟩ := (HandlerDescriptor.matches_event_iff _ _ _).mp hmatches
    rw [← htopic, ← hfilter]
    exact decide_eq_true ⟨hsame.symm, hkey⟩
  have hpulled : ev ∈ group.pulled := by
    have hsublist := hkept g group stream hgroup (by simp [GroupTask.is_open, hpolling]) hstream
    rw [hempty, List.append_nil] at hsublist
    exact hsublist.subset (List.mem_filter.mpr ⟨hev, hadmits⟩)
  refine ⟨hpulled, ?_⟩
  obtain ⟨o, ho⟩ := List.mem_iff_getElem?.mp hpulled
  obtain ⟨i, task, htask, hserves, hargs⟩ | ⟨other, _, _, hother, hpc, _⟩ :=
    hstreaming.sound.served_or_pending ⟨group, hgroup, hh, ho, hmatches⟩
  · exact ⟨task, List.mem_of_getElem? htask, hserves.1, hserves.2.2, hargs⟩
  · cases Option.some.inj (hgroup.symm.trans hother)
    rw [hpolling] at hpc
    cases hpc

/-- A subscribe call that leaves a late event uncovered drops it. -/
theorem not_kept_subscribe {Value Actor Valence : Type} {self : Executor Value Actor Valence}
    {s s' : Live Value Valence} {g : Nat} (hstreaming : Streaming self s)
    (huncovered : ¬ LateCovered s (.subscribe g))
    (hstep : live_step live_after_resume self s (.subscribe g) = some s') :
    ¬ s'.Kept := by
  simp only [LateCovered, Option.mem_def, not_forall] at huncovered
  obtain ⟨group, hgroup, ev, hev, hadmits, huncovered⟩ := huncovered
  obtain ⟨_, running, hgroup', hrun, rfl⟩ := live_step_subscribe hstep
  cases Option.some.inj (hgroup.symm.trans hgroup')
  obtain ⟨_, group', _, hgroup', hmoves, _, hafter, _⟩ := Executor.step_group_cases hrun
  cases Option.some.inj (hgroup.symm.trans hgroup')
  cases hmoves with
  | subscribe hpc =>
    intro hkept
    have hsublist := hkept g _ _ hafter rfl (Broker.subscribe_streams_self _ _ _ _ _)
    have hmem := hsublist.subset (List.mem_filter.mpr ⟨hev, hadmits⟩)
    obtain hpulled | hpending := List.mem_append.mp hmem
    · obtain ⟨_, hnone⟩ | ⟨hopen, _⟩ := hstreaming.fed g group hgroup
      · simp only [GroupTask.pulled, GroupTask.current, hpc] at hnone
        simp [GroupTask.pulled, GroupTask.current, hnone] at hpulled
      · simp [GroupTask.is_open, hpc] at hopen
    · obtain ⟨_, hretained⟩ := List.mem_filter.mp hpending
      simp only [Bool.and_eq_true, decide_eq_true_eq] at hretained
      exact huncovered ((delivers_retained_iff_covers (hstreaming.scanned g group hgroup) ev).mp hretained.2)

/-- A publish at or before the resume point of an open stream is dropped. -/
theorem not_kept_publish {Value Actor Valence : Type} {self : Executor Value Actor Valence}
    {s s' : Live Value Valence} {ev : Event Value} (hstreaming : Streaming self s)
    (huncovered : ¬ LateCovered s (.publish ev)) (hstep : live_step live_after_resume self s (.publish ev) = some s') :
    ¬ s'.Kept := by
  simp only [LateCovered, not_forall] at huncovered
  obtain ⟨hreturned, g, group, hgroup, hopen, hadmits, hall, hdurable, huncovered⟩ := huncovered
  cases hstep
  have hdead : ¬ delivers_live group.after_seq ev := by
    rw [delivers_live_iff_covers (hstreaming.scanned g group hgroup)]
    exact fun hcovers => huncovered (hcovers hall hdurable)
  obtain ⟨hidle, _⟩ | ⟨_, stream, hstream, hfeeds⟩ := hstreaming.fed g group hgroup
  · simp [GroupTask.is_open, hidle] at hopen
  · intro hkept
    have hpush : (s.broker.publish live_after_resume ev).streams g = some stream := by
      rw [← hfeeds.after_eq] at hdead
      have hsame : stream.push live_after_resume ev = stream :=
        Subscription.push_eq_self (by simpa [live_after_resume] using hdead)
      simp only [Broker.publish, hstream, Option.map_some, hsame]
    have hlate : ev ∈ if s.running.unspawned.isEmpty then s.late ++ [ev] else s.late := by
      simp [hreturned]
    have hmem := (hkept g group stream hgroup hopen hpush).subset (List.mem_filter.mpr ⟨hlate, hadmits⟩)
    obtain hpulled | hpending := List.mem_append.mp hmem
    · exact hdead (hfeeds.pulled ev hpulled)
    · have hlive := (hfeeds.delivers ev hpending).2
      rw [hfeeds.after_eq] at hlive
      exact hdead hlive

end Streaming

/-- The turn in which a subscription task that has an event in hand looks at
its next descriptor. -/
theorem live_step_spawn {Value Actor Valence : Type} (self : Executor Value Actor Valence)
    {s : Live Value Valence} {g next : Nat} {group : GroupTask Value} {ev : Event Value}
    (hgroup : s.running.groups[g]? = some group) (hpc : group.pc = .dispatching ev next) :
    ∃ s' group', live_step live_after_resume self s (.run (.group g .spawn)) = some s' ∧ s'.broker = s.broker ∧
      s'.late = s.late ∧ s'.running.groups[g]? = some group' ∧ group'.handlers = group.handlers ∧
      (group'.pc = .polling ∨ (next < group.handlers.length ∧ group'.pc = .dispatching ev (next + 1))) := by
  obtain ⟨group', spawned, hturn, hhandlers, hnext⟩ := exists_spawn_turn hpc
  have hpc' : group'.pc = .polling ∨
      (next < group.handlers.length ∧ group'.pc = .dispatching ev (next + 1)) :=
    hnext.imp And.left fun hmore => ⟨hmore.1, hmore.2.1⟩
  have hlocal : (Action.group g .spawn : Action Value).is_local = true := rfl
  simp only [live_step, hlocal, if_true, Executor.step, hgroup, hturn]
  exact ⟨_, group', rfl, rfl, rfl, getElem?_set_self hgroup, hhandlers, hpc'⟩

/-- A subscription task that has an event in hand comes back to its stream by
its own turns. -/
theorem drains_round {Value Actor Valence : Type} (self : Executor Value Actor Valence)
    {s : Live Value Valence} {g next : Nat} {group : GroupTask Value} {ev : Event Value}
    (hgroup : s.running.groups[g]? = some group) (hpc : group.pc = .dispatching ev next) :
    ∃ s' group', Steps (live_step live_after_resume self) (OwnTurns g) s s' ∧ s'.broker = s.broker ∧ s'.late = s.late ∧
      s'.running.groups[g]? = some group' ∧ group'.pc = .polling := by
  induction hleft : group.handlers.length - next generalizing s group next with
  | zero =>
    obtain ⟨s', group', hstep, hbroker, hlate, hgroup', _, hpc' | ⟨hlt, _⟩⟩ := live_step_spawn self hgroup hpc
    · exact ⟨s', group', .single (.inr rfl) hstep, hbroker, hlate, hgroup', hpc'⟩
    · omega
  | succ left ih =>
    obtain ⟨s', group', hstep, hbroker, hlate, hgroup', hhandlers, hpc' | ⟨hlt, hpc'⟩⟩ :=
      live_step_spawn self hgroup hpc
    · exact ⟨s', group', .single (.inr rfl) hstep, hbroker, hlate, hgroup', hpc'⟩
    · have hleft' : group'.handlers.length - (next + 1) = left := by
        rw [hhandlers]
        omega
      obtain ⟨finish, last, hrun, hbroker', hlate', hlast, hpolling⟩ := ih hgroup' hpc' hleft'
      exact ⟨finish, last, (Steps.single (.inr rfl) hstep).trans hrun, hbroker'.trans hbroker,
        hlate'.trans hlate, hlast, hpolling⟩

/-- An open stream is drained by the turns of its own subscription task. -/
theorem drains {Value Actor Valence : Type} (self : Executor Value Actor Valence)
    {s : Live Value Valence} {g : Nat} {group : GroupTask Value} {stream : Subscription Value}
    (hgroup : s.running.groups[g]? = some group) (hpolling : group.pc = .polling)
    (hstream : s.broker.streams g = some stream) :
    ∃ finish, Steps (live_step live_after_resume self) (OwnTurns g) s finish ∧ finish.late = s.late ∧
      finish.Drained g := by
  induction hpending : stream.pending generalizing s group stream with
  | nil => exact ⟨s, .refl s, rfl, group, stream, hgroup, hpolling, hstream, hpending⟩
  | cons ev rest ih =>
    obtain ⟨broker, hnext, hrest⟩ := Broker.next_of_pending hstream hpending
    have hturn : group_step group (.next (some (.ok ev))) =
        some ({ group with pc := .dispatching ev 0 }, none) := by
      simp only [group_step, hpolling]
    obtain ⟨running, hrun, hgroup'⟩ : ∃ running,
        self.step s.running (.group g (.next (some (.ok ev)))) = some running ∧
          running.groups[g]? = some { group with pc := .dispatching ev 0 } := by
      simp only [Executor.step, hgroup, hturn]
      exact ⟨_, rfl, getElem?_set_self hgroup⟩
    have hdeliver : live_step live_after_resume self s (.deliver g) = some { s with running, broker } := by
      simp only [live_step, hnext, hrun]
    obtain ⟨s', group', hround, hbroker, hlate, hgroup'', hpolling'⟩ :=
      drains_round self (s := { s with running, broker }) hgroup' rfl
    have hstream' : s'.broker.streams g = some { stream with pending := rest } := by
      rw [hbroker]
      exact hrest
    obtain ⟨finish, hdrain, hlate', hdrained⟩ := ih hgroup'' hpolling' hstream' rfl
    exact ⟨finish, (Steps.single (.inl rfl) hdeliver).trans (hround.trans hdrain), hlate'.trans hlate, hdrained⟩

/-- Events published after `start_executor` has returned are all dispatched
exactly as far as the subscribe calls come before them or checkpoints cover
them. Every registered handler has a subscription task, and the task drains its
stream by its own turns once it has subscribed. -/
theorem no_window_exactly_late_covered {Value Actor Valence : Type} (self : Executor Value Actor Valence)
    (retained : List (Event Value)) :
    ExactGuard (live_step live_after_resume self) NotAborted LateCovered (live_start self retained) NoWindow ∧
    ∀ s, Steps (live_step live_after_resume self) NotAborted (live_start self retained) s → s.running.unspawned = [] →
      ∀ h ∈ self.registry.iter, ∃ (g : Nat) (group : GroupTask Value) (k : Nat),
        s.running.groups[g]? = some group ∧ group.handlers[k]? = some h ∧
        (group.is_open = true →
          ∃ finish, Steps (live_step live_after_resume self) (OwnTurns g) s finish ∧ finish.late = s.late ∧
            finish.Drained g) := by
  refine ⟨⟨?_, ?_⟩, ?_⟩
  · intro finish hrun
    have hboth : Streaming self finish ∧ finish.Kept := by
      apply hrun.invariant
      · rintro before action after ⟨hstreaming, hkept⟩ ⟨hcalm, hcovered⟩ hstep
        exact ⟨hstreaming.step hcalm hstep, hstreaming.kept_step hcovered hkept hstep⟩
      · exact ⟨.start self retained, by simp [Live.Kept, live_start, Executor.start]⟩
    obtain ⟨hstreaming, hkept⟩ := hboth
    exact ⟨hkept, fun g group hgroup hdrained ev hev k h hh hmatches =>
      hstreaming.dispatched hkept hgroup hdrained hev hh hmatches⟩
  · intro before action after hrun hcalm huncovered hstep
    have hstreaming := Streaming.of_steps hrun fun _ _ hok => hok
    refine ⟨after, .refl after, fun hwindow => ?_⟩
    cases action with
    | publish => exact hstreaming.not_kept_publish huncovered hstep hwindow.kept
    | subscribe => exact hstreaming.not_kept_subscribe huncovered hstep hwindow.kept
    | deliver | run => exact huncovered trivial
  · intro s hrun hreturned h hh
    have hstreaming := Streaming.of_steps hrun fun _ _ hok => hok
    obtain ⟨g, group, k, hgroup, hk⟩ := hstreaming.sound.registered hreturned hh
    refine ⟨g, group, k, hgroup, hk, fun hopen => ?_⟩
    obtain ⟨hidle, _⟩ | ⟨_, stream, hstream, _⟩ := hstreaming.fed g group hgroup
    · simp [GroupTask.is_open, hidle] at hopen
    · cases hpc : group.pc with
      | polling => exact drains self hgroup hpc hstream
      | dispatching ev next =>
        obtain ⟨s', group', hround, hbroker, hlate, hgroup', hpolling⟩ := drains_round self hgroup hpc
        rw [← hbroker] at hstream
        obtain ⟨finish, hdrain, hlate', hdrained⟩ := drains self hgroup' hpolling hstream
        exact ⟨finish, hround.trans hdrain, hlate'.trans hlate, hdrained⟩
      | _ => simp [GroupTask.is_open, hpc] at hopen

/-- The single group is spawned and `start_executor` has returned; an event is
published before its task has subscribed. -/
def publishing_early : List (LiveAction ActorJson) :=
  [.run .spawn_group, .publish (orders_event none 1), .run (.group 0 (.lookup (.ok none))), .subscribe 0]

def published_early : Live ActorJson Actor :=
  (execute (live_step live_after_resume billing_executor) (live_start billing_executor []) publishing_early).get rfl

theorem early_event_dropped :
    Steps (live_step live_after_resume billing_executor) NotAborted (live_start billing_executor []) published_early ∧
      published_early.late = [orders_event none 1] ∧ published_early.Drained 0 ∧
      ¬ NoWindow published_early := by
  have hrun : Steps (live_step live_after_resume billing_executor) NotAborted (live_start billing_executor [])
      published_early :=
    execute_steps publishing_early (by decide) (Option.some_get _).symm
  have hdrained : published_early.Drained 0 := ⟨_, _, rfl, rfl, rfl, rfl⟩
  refine ⟨hrun, rfl, hdrained, fun hwindow => ?_⟩
  have hpulled := (hwindow.dispatched 0 _ rfl hdrained (orders_event none 1) (.head _) 0 _ rfl rfl).1
  cases hpulled

end photon_valence_identity.executor
