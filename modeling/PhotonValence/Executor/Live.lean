import PhotonValence.Executor.Resume
import PhotonValence.Photon.Broker

open photon_backend transition slots

namespace photon_valence_identity.executor

/-- A running executor together with the broker it is subscribed to. `late` is
history: the events published since `start_executor` returned. -/
structure Live (Value Valence : Type) where
  running : State Value Valence
  broker : Broker Value
  late : List (Event Value) := []

/-- A publish, the subscribe call of a subscription task, the delivery of the
next event of its stream, or a step of the executor that involves no stream. -/
inductive LiveAction (Value : Type) where
  | publish (ev : Event Value)
  | subscribe (g : Nat)
  | deliver (g : Nat)
  | run (action : Action Value)

/-- The steps of the executor that do not read from a stream. A stream error is
one: it takes nothing from the queue. Live streams do not end. -/
def Action.is_local {Value : Type} : Action Value → Bool
  | .group _ .subscribe | .group _ (.next none) | .group _ (.next (some (.ok _))) => false
  | _ => true

/-- A step of an executor with a broker whose rule for events published while a
stream is open is `live`. -/
def live_step {Value Actor Valence : Type} (live : Option Int → Event Value → Bool)
    (self : Executor Value Actor Valence) (s : Live Value Valence) :
    LiveAction Value → Option (Live Value Valence)
  | .publish ev => some { s with
      broker := s.broker.publish live ev
      late := if s.running.unspawned.isEmpty then s.late ++ [ev] else s.late }
  | .subscribe g =>
    match s.running.groups[g]?, self.step s.running (.group g .subscribe) with
    | some group, some running => some { s with
        running
        broker := s.broker.subscribe g group.topic_name group.topic_key_filter group.after_seq }
    | _, _ => none
  | .deliver g =>
    match s.broker.next g with
    | none => none
    | some (ev, broker) =>
      match self.step s.running (.group g (.next (some (.ok ev)))) with
      | none => none
      | some running => some { s with running, broker }
  | .run action =>
    if action.is_local then
      match self.step s.running action with
      | none => none
      | some running => some { s with running }
    else none

/-- Nothing runs and no stream is open; the broker may retain events. -/
def live_start {Value Actor Valence : Type} (self : Executor Value Actor Valence)
    (retained : List (Event Value)) : Live Value Valence where
  running := self.start
  broker := ⟨retained, fun _ => none⟩

/-- The executor is not aborted, nor its handle dropped. -/
def NotAborted {Value Valence : Type} (_ : Live Value Valence) : LiveAction Value → Prop
  | .run .abort => False
  | _ => True

instance {Value Valence : Type} (s : Live Value Valence) (action : LiveAction Value) :
    Decidable (NotAborted s action) :=
  match action with
  | .run .abort => instDecidableFalse
  | .run .spawn_group | .run (.group _ _) | .run (.dispatch _ _) | .run (.cancel _) => instDecidableTrue
  | .publish _ | .subscribe _ | .deliver _ => instDecidableTrue

/-- The stream a subscription task has opened is the one for its topic, filter
and resume point, and what it has pulled came through it. -/
structure Feeds {Value : Type} (stream : Subscription Value) (group : GroupTask Value) : Prop where
  topic_eq : stream.topic_name = group.topic_name
  filter_eq : stream.topic_key_filter = group.topic_key_filter
  after_eq : stream.after_seq = group.after_seq
  delivers : stream.Delivers
  pulled : ∀ ev ∈ group.pulled, delivers_live group.after_seq ev

/-- A subscription task has not subscribed yet and has pulled nothing, or its
stream is open. -/
def Fed {Value : Type} (streams : Nat → Option (Subscription Value)) (g : Nat) (group : GroupTask Value) :
    Prop :=
  (group.pc = .resuming ∧ group.pulled = []) ∨
    (group.is_open = true ∧ ∃ stream, streams g = some stream ∧ Feeds stream group)

/-- What holds in every state of a live system that is not aborted. -/
structure Streaming {Value Actor Valence : Type} (executor : Executor Value Actor Valence)
    (s : Live Value Valence) : Prop where
  sound : Sound executor s.running
  unaborted : s.running.aborted = false
  late_sublist : s.late.Sublist s.broker.published
  scanned : ∀ (g : Nat) (group : GroupTask Value), s.running.groups[g]? = some group →
    group.scan = ResumeScan.of_calls group.calls
  fed : ∀ (g : Nat) (group : GroupTask Value), s.running.groups[g]? = some group →
    Fed s.broker.streams g group

/-- A turn that reads no stream leaves an open task open and its stream and
pulled events as they are, and a task that is not open where it was. -/
theorem GroupMoves.of_local {Value : Type} {group group' : GroupTask Value} {turn : GroupTurn Value}
    {spawned : Option (Nat × DispatchArgs Value)} (hmoves : GroupMoves group turn group' spawned) {g : Nat}
    (hlocal : (Action.group g turn).is_local = true) :
    group'.pulled = group.pulled ∧ ((group.pc = .resuming ∧ group'.pc = .resuming) ∨
      (group.is_open = true ∧ group'.is_open = true ∧ group'.after_seq = group.after_seq)) := by
  have hpulled : group'.pulled = group.pulled := hmoves.pulled_eq fun ev heq => by
    rw [heq] at hlocal
    cases hlocal
  refine ⟨hpulled, ?_⟩
  cases hmoves with
  | lookup _ hpc => exact .inl ⟨hpc, hpc⟩
  | stream_error hpc | round_over hpc | pass_over hpc | spawn hpc =>
    simp [GroupTask.is_open, GroupTask.after_seq, hpc]
  | subscribe | finish | pull => cases hlocal

section

variable {Value Actor Valence : Type} {live : Option Int → Event Value → Bool}
  {self : Executor Value Actor Valence}

theorem live_step_subscribe {s s' : Live Value Valence} {g : Nat}
    (hstep : live_step live self s (.subscribe g) = some s') :
    ∃ group running, s.running.groups[g]? = some group ∧
      self.step s.running (.group g .subscribe) = some running ∧
      s' = { s with
        running
        broker := s.broker.subscribe g group.topic_name group.topic_key_filter group.after_seq } := by
  simp only [live_step] at hstep
  split at hstep
  · rename_i group running hgroup hrun
    cases hstep
    exact ⟨group, running, hgroup, hrun, rfl⟩
  · cases hstep

theorem live_step_deliver {s s' : Live Value Valence} {g : Nat}
    (hstep : live_step live self s (.deliver g) = some s') :
    ∃ ev broker running, s.broker.next g = some (ev, broker) ∧
      self.step s.running (.group g (.next (some (.ok ev)))) = some running ∧
      s' = { s with running, broker } := by
  simp only [live_step] at hstep
  split at hstep
  · cases hstep
  · rename_i ev broker hnext
    split at hstep
    · cases hstep
    · rename_i running hrun
      cases hstep
      exact ⟨ev, broker, running, hnext, hrun, rfl⟩

theorem live_step_run {s s' : Live Value Valence} {action : Action Value}
    (hstep : live_step live self s (.run action) = some s') :
    ∃ running, action.is_local = true ∧ self.step s.running action = some running ∧
      s' = { s with running } := by
  simp only [live_step] at hstep
  split at hstep
  · rename_i hlocal
    split at hstep
    · cases hstep
    · rename_i running hrun
      cases hstep
      exact ⟨running, hlocal, hrun, rfl⟩
  · cases hstep

/-- The executor in a live system takes at most one of its own steps at a time,
and subscribes only in the subscribe calls of the system. -/
theorem live_step_running {s s' : Live Value Valence} {action : LiveAction Value}
    (hstep : live_step live self s action = some s') :
    s'.running = s.running ∨ ∃ own, self.step s.running own = some s'.running ∧
      ∀ g, own = .group g .subscribe → action = .subscribe g := by
  cases action with
  | publish =>
    cases hstep
    exact .inl rfl
  | subscribe =>
    obtain ⟨_, _, _, hrun, rfl⟩ := live_step_subscribe hstep
    refine .inr ⟨_, hrun, fun g hown => ?_⟩
    cases hown
    rfl
  | deliver =>
    obtain ⟨_, _, _, _, hrun, rfl⟩ := live_step_deliver hstep
    exact .inr ⟨_, hrun, nofun⟩
  | run =>
    obtain ⟨_, hlocal, hrun, rfl⟩ := live_step_run hstep
    refine .inr ⟨_, hrun, fun g hown => ?_⟩
    rw [hown] at hlocal
    cases hlocal

/-- The executor in a live system is in a state that it reaches by itself. -/
theorem live_reachable {retained : List (Event Value)} {ok : Live Value Valence → LiveAction Value → Prop}
    {s : Live Value Valence} (hrun : Steps (live_step live self) ok (live_start self retained) s) :
    self.Reachable anyStep s.running := by
  apply hrun.invariant
  · intro before action after hbefore _ hstep
    obtain hsame | ⟨own, hown, _⟩ := live_step_running hstep
    · rw [hsame]
      exact hbefore
    · exact .tail hbefore trivial hown
  · exact .refl _

end

namespace Streaming

theorem start {Value Actor Valence : Type} (self : Executor Value Actor Valence)
    (retained : List (Event Value)) : Streaming self (live_start self retained) where
  sound := Executor.sound_start self
  unaborted := rfl
  late_sublist := List.nil_sublist _
  scanned := by simp [live_start, Executor.start]
  fed := by simp [live_start, Executor.start]

theorem publish {Value Actor Valence : Type} {self : Executor Value Actor Valence}
    {s s' : Live Value Valence} {ev : Event Value} (hstreaming : Streaming self s)
    (hstep : live_step live_after_resume self s (.publish ev) = some s') : Streaming self s' := by
  cases hstep
  refine ⟨hstreaming.sound, hstreaming.unaborted, ?_, hstreaming.scanned, ?_⟩
  · simp only [Broker.publish]
    split
    · exact hstreaming.late_sublist.append (List.Sublist.refl _)
    · exact hstreaming.late_sublist.trans (List.sublist_append_left _ _)
  · intro g group hgroup
    obtain hidle | ⟨hopen, stream, hstream, hfeeds⟩ := hstreaming.fed g group hgroup
    · exact .inl hidle
    · obtain ⟨htopic, hfilter, hafter, _⟩ :
          (stream.push live_after_resume ev).topic_name = stream.topic_name ∧ _ := stream.push_same ev
      refine .inr ⟨hopen, stream.push live_after_resume ev, by simp [Broker.publish, hstream], ?_⟩
      exact ⟨htopic.trans hfeeds.topic_eq, hfilter.trans hfeeds.filter_eq, hafter.trans hfeeds.after_eq,
        hfeeds.delivers.push ev, hfeeds.pulled⟩

theorem subscribe {Value Actor Valence : Type} {self : Executor Value Actor Valence}
    {s s' : Live Value Valence} {g : Nat} (hstreaming : Streaming self s)
    (hstep : live_step live_after_resume self s (.subscribe g) = some s') : Streaming self s' := by
  obtain ⟨group, running, hgroup, hrun, rfl⟩ := live_step_subscribe hstep
  obtain ⟨before, group', spawned, hbefore, hmoves, hgroups, _, _, haborted⟩ := Executor.step_group_cases hrun
  cases Option.some.inj (hgroup.symm.trans hbefore)
  refine ⟨Executor.sound_step hstreaming.sound hrun, haborted.trans hstreaming.unaborted,
    hstreaming.late_sublist,
    fun _ _ => (Executor.transition_of_step hrun).scanned hstreaming.scanned, ?_⟩
  intro j other hother
  rw [hgroups] at hother
  obtain ⟨rfl, rfl⟩ | ⟨hne, hold⟩ := getElem?_set_cases hother
  · cases hmoves with
    | subscribe hpc =>
      have hpulled : group.pulled = [] := by
        obtain ⟨_, hpulled⟩ | ⟨hopen, _⟩ := hstreaming.fed j group hgroup
        · exact hpulled
        · simp [GroupTask.is_open, hpc] at hopen
      refine .inr ⟨rfl, _, Broker.subscribe_streams_self _ _ _ _ _, rfl, rfl, rfl,
        Broker.opened_delivers _ _ _ _, ?_⟩
      intro ev hev
      have hnone : ev ∈ group.pulled := by
        simpa [GroupTask.pulled, GroupTask.current, hpc] using hev
      rw [hpulled] at hnone
      cases hnone
  · obtain hidle | ⟨hopen, stream, hstream, hfeeds⟩ := hstreaming.fed j other hold
    · exact .inl hidle
    · exact .inr ⟨hopen, stream, (Broker.subscribe_streams_ne _ hne _ _ _).trans hstream, hfeeds⟩

theorem deliver {Value Actor Valence : Type} {self : Executor Value Actor Valence}
    {s s' : Live Value Valence} {g : Nat} (hstreaming : Streaming self s)
    (hstep : live_step live_after_resume self s (.deliver g) = some s') : Streaming self s' := by
  obtain ⟨ev, broker, running, hnext, hrun, rfl⟩ := live_step_deliver hstep
  obtain ⟨group, group', spawned, hgroup, hmoves, hgroups, _, _, haborted⟩ := Executor.step_group_cases hrun
  obtain ⟨stream, rest, hstream, hpending, hpublished, hself, hothers⟩ := Broker.next_eq_some hnext
  refine ⟨Executor.sound_step hstreaming.sound hrun, haborted.trans hstreaming.unaborted, ?_,
    fun _ _ => (Executor.transition_of_step hrun).scanned hstreaming.scanned, ?_⟩
  · rw [hpublished]
    exact hstreaming.late_sublist
  · intro j other hother
    rw [hgroups] at hother
    obtain ⟨rfl, rfl⟩ | ⟨hne, hold⟩ := getElem?_set_cases hother
    · have hpulled := hmoves.pulled_pull
      cases hmoves with
      | pull _ hpc =>
        obtain ⟨hidle, _⟩ | ⟨_, stream', hstream', hfeeds⟩ := hstreaming.fed j group hgroup
        · rw [hpc] at hidle
          cases hidle
        · cases Option.some.inj (hstream.symm.trans hstream')
          refine .inr ⟨rfl, _, hself, hfeeds.topic_eq, hfeeds.filter_eq, hfeeds.after_eq, ?_, ?_⟩
          · intro later hlater
            exact hfeeds.delivers later (by simp [hpending, hlater])
          · intro pulled hmem
            rw [hpulled] at hmem
            obtain hold | hnew := List.mem_append.mp hmem
            · exact hfeeds.pulled pulled hold
            · have hlive := (hfeeds.delivers ev (by simp [hpending])).2
              rw [hfeeds.after_eq] at hlive
              rw [List.mem_singleton.mp hnew]
              exact hlive
    · obtain hidle | ⟨hopen, stream', hstream', hfeeds⟩ := hstreaming.fed j other hold
      · exact .inl hidle
      · exact .inr ⟨hopen, stream', (hothers j hne).trans hstream', hfeeds⟩

theorem run {Value Actor Valence : Type} {self : Executor Value Actor Valence}
    {s s' : Live Value Valence} {action : Action Value} (hstreaming : Streaming self s)
    (hcalm : NotAborted s (.run action)) (hstep : live_step live_after_resume self s (.run action) = some s') :
    Streaming self s' := by
  obtain ⟨running, hlocal, hrun, rfl⟩ := live_step_run hstep
  have htransition := Executor.transition_of_step hrun
  have hcalm : action ≠ .abort := by
    rintro rfl
    exact hcalm
  refine ⟨Executor.sound_step hstreaming.sound hrun, (htransition.aborted_eq hcalm).trans hstreaming.unaborted,
    hstreaming.late_sublist, fun _ _ => htransition.scanned hstreaming.scanned, ?_⟩
  intro g group' hgroup'
  have hchange := htransition.group_change hgroup'
  cases hchange with
  | stays hgroup => exact hstreaming.fed g group' hgroup
  | fresh hpc hpulled => exact .inl ⟨hpc, hpulled⟩
  | @moves group _ turn _ hgroup haction hmoves =>
    subst haction
    obtain ⟨htopic, hfilter, _⟩ := hmoves.same_group
    obtain ⟨hpulled, ⟨hidle, hidle'⟩ | ⟨hopen, hopen', hafter⟩⟩ := hmoves.of_local hlocal
    · obtain ⟨_, hnone⟩ | ⟨hopen, _⟩ := hstreaming.fed g group hgroup
      · exact .inl ⟨hidle', hpulled.trans hnone⟩
      · simp [GroupTask.is_open, hidle] at hopen
    · obtain ⟨hidle, _⟩ | ⟨_, stream, hstream, hfeeds⟩ := hstreaming.fed g group hgroup
      · simp [GroupTask.is_open, hidle] at hopen
      · refine .inr ⟨hopen', stream, hstream, hfeeds.topic_eq.trans htopic.symm,
          hfeeds.filter_eq.trans hfilter.symm, hfeeds.after_eq.trans hafter.symm, hfeeds.delivers, ?_⟩
        rw [hpulled, hafter]
        exact hfeeds.pulled
  | cancelled _ haction =>
    subst haction
    cases htransition with
    | cancel haborted =>
      rw [hstreaming.unaborted] at haborted
      cases haborted

theorem step {Value Actor Valence : Type} {self : Executor Value Actor Valence}
    {s s' : Live Value Valence} {action : LiveAction Value} (hstreaming : Streaming self s)
    (hcalm : NotAborted s action) (hstep : live_step live_after_resume self s action = some s') :
    Streaming self s' := by
  cases action with
  | publish => exact hstreaming.publish hstep
  | subscribe => exact hstreaming.subscribe hstep
  | deliver => exact hstreaming.deliver hstep
  | run => exact hstreaming.run hcalm hstep

/-- The invariant holds in every state a live system reaches without being
aborted. -/
theorem of_steps {Value Actor Valence : Type} {self : Executor Value Actor Valence}
    {retained : List (Event Value)} {ok : Live Value Valence → LiveAction Value → Prop}
    {s : Live Value Valence} (hrun : Steps (live_step live_after_resume self) ok (live_start self retained) s)
    (hcalm : ∀ state action, ok state action → NotAborted state action) : Streaming self s :=
  hrun.invariant (fun _ _ _ hbefore hok hstep => hbefore.step (hcalm _ _ hok) hstep)
    (.start self retained)

end Streaming

end photon_valence_identity.executor
