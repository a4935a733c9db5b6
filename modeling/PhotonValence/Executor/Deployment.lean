import PhotonValence.Executor.Delivery
import PhotonValence.Executor.Watermark

open photon_backend register transition slots

namespace photon_valence_identity.executor

/-- An executor that is started again whenever its process has gone down, over
the checkpoint store it had. `published` is what Photon retains, `past` holds the
states the earlier processes were left in, `stored` the checkpoints from before
the first. -/
structure Deployment (Value Actor Valence : Type) where
  setup : Executor Value Actor Valence
  running : State Value Valence
  published : List (Event Value)
  stored : List (Slot × Int)
  past : List (State Value Valence) := []

/-- A publish, a step of the running process, or the start of the next one:
whatever the running one was doing is lost. -/
inductive DeploymentAction (Value Actor Valence : Type) where
  | publish (ev : Event Value)
  | run (action : Action Value)
  | restart (setup : Executor Value Actor Valence)

/-- What a lookup under a slot may answer over a store. It need not be the last
checkpoint: the coalescer may have lost that one with its process. -/
def answers_from (checkpoints : List (Slot × Int)) (slot : Slot) : CheckpointAnswer → Prop
  | .ok none => slot ∉ checkpoints.map Prod.fst
  | .ok (some seq) => (slot, seq) ∈ checkpoints
  | .error _ => False

instance (checkpoints : List (Slot × Int)) (slot : Slot) (answer : CheckpointAnswer) :
    Decidable (answers_from checkpoints slot answer) :=
  match answer with
  | .ok none => inferInstanceAs (Decidable (slot ∉ checkpoints.map Prod.fst))
  | .ok (some seq) => inferInstanceAs (Decidable ((slot, seq) ∈ checkpoints))
  | .error _ => instDecidableFalse

/-- The events of a topic are numbered in the order of their publication. -/
def Numbered {Value : Type} (published : List (Event Value)) : Prop :=
  published.Pairwise fun earlier ev => earlier.topic_name = ev.topic_name → earlier.seq < ev.seq

/-- The events that a stream of a key, opened at `a`, is to hand out: those of
its topic past `a` among the ones that such streams carry. Which they carry is
up to Photon. -/
def due {Value : Type} (carries : TopicKey → Event Value → Bool) (published : List (Event Value))
    (key : TopicKey) (a : Int) : List (Event Value) :=
  published.filter fun ev => ev.topic_name = key.1 ∧ carries key ev ∧ a < ev.seq

/-- The law of the streams. A stream hands out published events of its topic
that lie past its resume point. It may repeat itself, and hand out more than is
due, but once it has resumed it comes to no event before all that are due and
lie before that one. -/
def HandsOut {Value : Type} (carries : TopicKey → Event Value → Bool) (published : List (Event Value))
    (key : TopicKey) (after_seq : Option Int) (pulled : List (Event Value)) (ev : Event Value) : Prop :=
  ev ∈ published ∧ ev.topic_name = key.1 ∧ ∀ a ∈ after_seq, a < ev.seq ∧
    ∀ earlier ∈ due carries published key a, earlier.seq < ev.seq → earlier ∈ pulled

instance {Value : Type} [DecidableEq Value] (carries : TopicKey → Event Value → Bool)
    (published : List (Event Value)) (key : TopicKey) (after_seq : Option Int) (pulled : List (Event Value))
    (ev : Event Value) : Decidable (HandsOut carries published key after_seq pulled ev) :=
  inferInstanceAs (Decidable (_ ∧ _ ∧ _))

/-- A subscription task has resumed, waits for its stream and has pulled all
that is due to it. -/
def GroupTask.CaughtUp {Value : Type} (carries : TopicKey → Event Value → Bool) (published : List (Event Value))
    (group : GroupTask Value) : Prop :=
  group.pc = .polling ∧ ∀ a ∈ group.after_seq, ∀ ev ∈ due carries published group.key a, ev ∈ group.pulled

namespace Deployment

def start {Value Actor Valence : Type} (setup : Executor Value Actor Valence)
    (published : List (Event Value)) (stored : List (Slot × Int)) : Deployment Value Actor Valence where
  setup := setup
  running := setup.start
  published := published
  stored := stored

def step {Value Actor Valence : Type} (self : Deployment Value Actor Valence) :
    DeploymentAction Value Actor Valence → Option (Deployment Value Actor Valence)
  | .publish ev => some { self with published := self.published ++ [ev] }
  | .run action => (self.setup.step self.running action).map fun running => { self with running }
  | .restart setup => some { self with
      setup
      running := setup.start
      past := self.past ++ [self.running] }

/-- The state of every process, the running one last. -/
def states {Value Actor Valence : Type} (self : Deployment Value Actor Valence) : List (State Value Valence) :=
  self.past ++ [self.running]

/-- Everything recorded through the coalescers of all processes. -/
def checkpoints {Value Actor Valence : Type} (self : Deployment Value Actor Valence) : List (Slot × Int) :=
  self.stored ++ self.states.flatMap State.checkpoints

/-- `Photon::get_checkpoint_seq` over this store. -/
def get_checkpoint_seq {Value Actor Valence : Type} (self : Deployment Value Actor Valence)
    (name topic_name : String) (topic_key : Option String) : CheckpointAnswer :=
  .ok (greatest self.checkpoints (name, topic_name, topic_key))

/-- A dispatch of the event to the handler has returned Ok or left the event in
the DLQ, in this process or an earlier one. -/
def Handled {Value Actor Valence : Type} (self : Deployment Value Actor Valence) (h : HandlerDescriptor)
    (ev : Event Value) : Prop :=
  ∃ state ∈ self.states, ∃ task ∈ state.tasks, task.args = routed_args h ev ∧ task.pc.settled = true

/-- The handler is to get the event: it was published, streams of the handler's
key carry it, the handler takes it, and it comes after the checkpoints the
handler had at the start. -/
structure Owes {Value Actor Valence : Type} (carries : TopicKey → Event Value → Bool)
    (d : Deployment Value Actor Valence) (h : HandlerDescriptor) (ev : Event Value) : Prop where
  published : ev ∈ d.published
  carried : carries h.topicKey ev = true
  takes : h.matches_event ev.topic_name ev.topic_key = true
  after_stored : ∀ slot ∈ read_slot h, ∀ seq, (slot, seq) ∈ d.stored → seq < ev.seq

end Deployment

/-- A step of a deployment as its parts are documented to behave: events are
numbered as they are published, streams keep to their law, lookups for durable
handlers succeed and yield what was stored, a process is started with the
handlers of the first, and handlers return in order. -/
def Orderly {Value Actor Valence : Type} (carries : TopicKey → Event Value → Bool)
    (d : Deployment Value Actor Valence) : DeploymentAction Value Actor Valence → Prop
  | .publish ev => ∀ earlier ∈ d.published, earlier.topic_name = ev.topic_name → earlier.seq < ev.seq
  | .run (.group g (.lookup answer)) =>
    ∀ group ∈ d.running.groups[g]?, ∀ h ∈ group.handlers[group.answers.length]?,
      ∀ slot ∈ read_slot h, answers_from d.checkpoints slot answer
  | .run (.group g (.next (some (.ok ev)))) =>
    ∀ group ∈ d.running.groups[g]?, HandsOut carries d.published group.key group.after_seq group.pulled ev
  | .run (.dispatch i turn) => ReturnsInOrder d.running (.dispatch i turn)
  | .run _ => True
  | .restart setup => setup.registry.iter = d.setup.registry.iter

instance {Value Actor Valence : Type} [DecidableEq Value] (carries : TopicKey → Event Value → Bool)
    (d : Deployment Value Actor Valence) (action : DeploymentAction Value Actor Valence) :
    Decidable (Orderly carries d action) :=
  match action with
  | .publish ev => inferInstanceAs (Decidable (∀ earlier ∈ d.published,
      earlier.topic_name = ev.topic_name → earlier.seq < ev.seq))
  | .run (.group g (.lookup answer)) => inferInstanceAs (Decidable
      (∀ group ∈ d.running.groups[g]?, ∀ h ∈ group.handlers[group.answers.length]?,
        ∀ slot ∈ read_slot h, answers_from d.checkpoints slot answer))
  | .run (.group g (.next (some (.ok ev)))) => inferInstanceAs (Decidable
      (∀ group ∈ d.running.groups[g]?, HandsOut carries d.published group.key group.after_seq group.pulled ev))
  | .run (.dispatch i turn) => inferInstanceAs (Decidable (ReturnsInOrder d.running (.dispatch i turn)))
  | .run (.group _ (.next none)) | .run (.group _ (.next (some (.error _)))) => instDecidableTrue
  | .run (.group _ .subscribe) | .run (.group _ .spawn) | .run .spawn_group => instDecidableTrue
  | .run .abort | .run (.cancel _) => instDecidableTrue
  | .restart setup => inferInstanceAs (Decidable (setup.registry.iter = d.setup.registry.iter))

namespace Deployment

section

variable {Value Actor Valence : Type} {d d' : Deployment Value Actor Valence}
  {action : DeploymentAction Value Actor Valence}

/-- Inversion of a step: an event is published, the running process goes on, or
the next one starts. -/
theorem step_cases (hstep : d.step action = some d') :
    (∃ ev, action = .publish ev ∧ d' = { d with published := d.published ++ [ev] }) ∨
      (∃ own running, action = .run own ∧ d.setup.step d.running own = some running ∧ d' = { d with running }) ∨
      ∃ setup, action = .restart setup ∧ d' = { d with
        setup
        running := setup.start
        past := d.past ++ [d.running] } := by
  cases action with
  | publish ev =>
    cases hstep
    exact .inl ⟨ev, rfl, rfl⟩
  | run own =>
    obtain ⟨running, hrun, rfl⟩ := Option.map_eq_some_iff.mp hstep
    exact .inr (.inl ⟨own, running, rfl, hrun, rfl⟩)
  | restart setup =>
    cases hstep
    exact .inr (.inr ⟨setup, rfl, rfl⟩)

theorem step_run {own : Action Value} {running : State Value Valence}
    (hrun : d.setup.step d.running own = some running) : d.step (.run own) = some { d with running } := by
  rw [step, hrun]
  rfl

/-- The running process is in a state that its executor reaches. -/
theorem reachable_of_steps {ok : Deployment Value Actor Valence → DeploymentAction Value Actor Valence → Prop}
    {first : Executor Value Actor Valence} {published : List (Event Value)} {stored : List (Slot × Int)}
    (hrun : Steps step ok (.start first published stored) d) : d.setup.Reachable anyStep d.running := by
  apply hrun.invariant
  · intro before action after hbefore _ hstep
    obtain ⟨ev, rfl, rfl⟩ | ⟨own, running, rfl, hown, rfl⟩ | ⟨setup, rfl, rfl⟩ := step_cases hstep
    · exact hbefore
    · exact .tail hbefore trivial hown
    · exact .refl _
  · exact .refl _

theorem mem_checkpoints_iff {entry : Slot × Int} :
    entry ∈ d.checkpoints ↔
      entry ∈ d.stored ∨ (∃ state ∈ d.past, entry ∈ state.checkpoints) ∨ entry ∈ d.running.checkpoints := by
  simp [checkpoints, states, List.mem_flatMap]

/-- The store only grows. -/
theorem checkpoints_subset (hstep : d.step action = some d') : d.checkpoints ⊆ d'.checkpoints := by
  intro entry hentry
  rw [mem_checkpoints_iff] at hentry ⊢
  obtain ⟨ev, rfl, rfl⟩ | ⟨own, running, rfl, hrun, rfl⟩ | ⟨setup, rfl, rfl⟩ := step_cases hstep
  · exact hentry
  · refine hentry.imp_right (Or.imp_right fun hrunning => ?_)
    obtain hsame | ⟨_, _, _, _, _, happend⟩ := (Executor.transition_of_step hrun).checkpoints
    · rwa [hsame]
    · rw [happend]
      exact List.mem_append_left _ hrunning
  · obtain hstored | ⟨state, hstate, hmem⟩ | hrunning := hentry
    · exact .inl hstored
    · exact .inr (.inl ⟨state, List.mem_append_left _ hstate, hmem⟩)
    · exact .inr (.inl ⟨_, List.mem_append_right _ (.head _), hrunning⟩)

/-- A restart leaves the store as it is. -/
theorem mem_checkpoints_restart {setup : Executor Value Actor Valence} {entry : Slot × Int} :
    entry ∈ ({ d with
      setup
      running := setup.start
      past := d.past ++ [d.running] } : Deployment Value Actor Valence).checkpoints ↔ entry ∈ d.checkpoints := by
  have hnone : setup.start.checkpoints = [] := rfl
  simp [checkpoints, states, hnone]

/-- What has been handled stays handled. -/
theorem Handled.step {h : HandlerDescriptor} {ev : Event Value} (hhandled : d.Handled h ev)
    (hstep : d.step action = some d') : d'.Handled h ev := by
  obtain ⟨state, hstate, task, htask, hargs, hsettled⟩ := hhandled
  obtain ⟨ev, rfl, rfl⟩ | ⟨own, running, rfl, hrun, rfl⟩ | ⟨setup, rfl, rfl⟩ := step_cases hstep
  · exact ⟨state, hstate, task, htask, hargs, hsettled⟩
  · obtain hpast | hrunning := List.mem_append.mp hstate
    · exact ⟨state, List.mem_append_left _ hpast, task, htask, hargs, hsettled⟩
    · cases List.mem_singleton.mp hrunning
      obtain ⟨pc', htask', hsettled'⟩ := (Executor.transition_of_step hrun).settled_task htask hsettled
      exact ⟨running, List.mem_append_right _ (.head _), _, htask', hargs, hsettled'⟩
  · exact ⟨state, List.mem_append_left _ hstate, task, htask, hargs, hsettled⟩

end

end Deployment

/-- Where the answer of a lookup comes from: the group had it, or this step is
the lookup. -/
theorem Executor.Transition.answer_origin {Value Actor Valence : Type} {self : Executor Value Actor Valence}
    {s s' : State Value Valence} {action : Action Value} (htransition : self.Transition s action s') {g j : Nat}
    {group' : GroupTask Value} {answer : CheckpointAnswer} (hgroup' : s'.groups[g]? = some group')
    (hanswer : group'.answers[j]? = some answer) :
    ∃ group, s.groups[g]? = some group ∧ group'.handlers = group.handlers ∧
      (group.answers[j]? = some answer ∨ action = .group g (.lookup answer) ∧ j = group.answers.length) := by
  cases htransition with
  | spawn_group =>
    obtain hold | ⟨_, hnew⟩ := getElem?_append_cases hgroup'
    · exact ⟨group', hold, rfl, .inl hanswer⟩
    · obtain ⟨_, hget⟩ := List.getElem?_eq_some_iff.mp hnew
      simp only [List.getElem_singleton] at hget
      rw [← hget] at hanswer
      cases hanswer
  | @group mover turn group _ _ hgroup hmoves =>
    obtain ⟨rfl, rfl⟩ | ⟨_, hold⟩ := getElem?_set_cases hgroup'
    · refine ⟨group, hgroup, hmoves.same_group.2.2, ?_⟩
      cases hmoves with
      | lookup given =>
        obtain hold | ⟨hle, hnew⟩ := getElem?_append_cases hanswer
        · exact .inl hold
        · obtain ⟨hlt, hget⟩ := List.getElem?_eq_some_iff.mp hnew
          simp only [List.length_singleton] at hlt
          simp only [List.getElem_singleton] at hget
          subst hget
          exact .inr ⟨rfl, by omega⟩
      | _ => exact .inl hanswer
    · exact ⟨group', hold, rfl, .inl hanswer⟩
  | @cancel _ group _ hgroup =>
    obtain ⟨rfl, rfl⟩ | ⟨_, hold⟩ := getElem?_set_cases hgroup'
    · exact ⟨group, hgroup, rfl, .inl hanswer⟩
    · exact ⟨group', hold, rfl, .inl hanswer⟩
  | _ => exact ⟨group', hgroup', rfl, .inl hanswer⟩

/-- What every lookup for a durable named handler has answered in this process,
under the handler's slot. -/
def State.Answered {Value Valence : Type} (s : State Value Valence) (P : Slot → CheckpointAnswer → Prop) : Prop :=
  ∀ (g : Nat) (group : GroupTask Value), s.groups[g]? = some group →
    ∀ (j : Nat) (h : HandlerDescriptor) (answer : CheckpointAnswer), group.handlers[j]? = some h →
      group.answers[j]? = some answer → ∀ slot ∈ read_slot h, P slot answer

theorem State.Answered.imp {Value Valence : Type} {s : State Value Valence} {P Q : Slot → CheckpointAnswer → Prop}
    (hanswered : s.Answered P) (himp : ∀ slot answer, P slot answer → Q slot answer) : s.Answered Q :=
  fun g group hgroup j h answer hj hanswer slot hslot =>
    himp slot answer (hanswered g group hgroup j h answer hj hanswer slot hslot)

theorem State.answered_start {Value Actor Valence : Type} (self : Executor Value Actor Valence)
    (P : Slot → CheckpointAnswer → Prop) : self.start.Answered P := by
  simp [State.Answered, Executor.start]

/-- What holds of the answers so far, and of this step's when it is a lookup,
holds of the answers after it. -/
theorem State.Answered.step {Value Actor Valence : Type} {self : Executor Value Actor Valence}
    {s s' : State Value Valence} {action : Action Value} {P : Slot → CheckpointAnswer → Prop}
    (hanswered : s.Answered P) (hstep : self.step s action = some s')
    (hlookup : ∀ g answer, action = .group g (.lookup answer) → ∀ group ∈ s.groups[g]?,
      ∀ h ∈ group.handlers[group.answers.length]?, ∀ slot ∈ read_slot h, P slot answer) : s'.Answered P := by
  intro g group' hgroup' j h answer hj hanswer slot hslot
  obtain ⟨group, hgroup, hhandlers, hbefore | ⟨rfl, rfl⟩⟩ :=
    (Executor.transition_of_step hstep).answer_origin hgroup' hanswer
  · rw [hhandlers] at hj
    exact hanswered g group hgroup j h answer hj hbefore slot hslot
  · rw [hhandlers] at hj
    exact hlookup g answer rfl group hgroup h hj slot hslot

/-- Every event of every subscription task was handed out by the law. -/
def Deployment.Lawful {Value Actor Valence : Type} (carries : TopicKey → Event Value → Bool)
    (d : Deployment Value Actor Valence) : Prop :=
  ∀ (g : Nat) (group : GroupTask Value), d.running.groups[g]? = some group →
    ∀ (o : Nat) (ev : Event Value), group.pulled[o]? = some ev →
      HandsOut carries d.published group.key group.after_seq (group.pulled.take o) ev

/-- An event that is published later does not come before one that has been
handed out. -/
theorem HandsOut.publish {Value : Type} {carries : TopicKey → Event Value → Bool} {published : List (Event Value)}
    {key : TopicKey} {after_seq : Option Int} {pulled : List (Event Value)} {ev new : Event Value}
    (hout : HandsOut carries published key after_seq pulled ev)
    (hnumbered : ∀ earlier ∈ published, earlier.topic_name = new.topic_name → earlier.seq < new.seq) :
    HandsOut carries (published ++ [new]) key after_seq pulled ev := by
  obtain ⟨hpublished, htopic, hresumed⟩ := hout
  refine ⟨List.mem_append_left _ hpublished, htopic, fun a ha => ?_⟩
  obtain ⟨hpast, hbefore⟩ := hresumed a ha
  refine ⟨hpast, fun earlier hearlier hless => ?_⟩
  rw [due, List.filter_append] at hearlier
  obtain hold | hnew := List.mem_append.mp hearlier
  · exact hbefore earlier hold hless
  · obtain ⟨hmem, hdue⟩ := List.mem_filter.mp hnew
    obtain rfl := List.mem_singleton.mp hmem
    obtain ⟨htopic', _⟩ := of_decide_eq_true hdue
    have hlater := hnumbered ev hpublished (htopic.trans htopic'.symm)
    omega

/-- A subscription task that has looked up its checkpoints keeps its resume
point. -/
theorem GroupMoves.after_seq_eq {Value : Type} {group group' : GroupTask Value} {turn : GroupTurn Value}
    {spawned : Option (Nat × DispatchArgs Value)} (hmoves : GroupMoves group turn group' spawned)
    (hpc : group.pc ≠ .resuming) : group'.after_seq = group.after_seq := by
  cases hmoves with
  | lookup _ hresuming => exact absurd hresuming hpc
  | _ => rfl

/-- A step of the executor keeps the law when what it pulls, if anything, was
handed out by it. -/
theorem Executor.Transition.lawful {Value Actor Valence : Type} {self : Executor Value Actor Valence}
    {s s' : State Value Valence} {action : Action Value} (htransition : self.Transition s action s')
    (lawful : TopicKey → Option Int → List (Event Value) → Event Value → Prop)
    (hfresh : ∀ (g : Nat) (group : GroupTask Value), s.groups[g]? = some group → group.pc = .resuming →
      group.pulled = [])
    (hpulls : ∀ g ev, action = .group g (.next (some (.ok ev))) → ∀ group ∈ s.groups[g]?,
      lawful group.key group.after_seq group.pulled ev)
    (hlawful : ∀ (g : Nat) (group : GroupTask Value), s.groups[g]? = some group →
      ∀ (o : Nat) (ev : Event Value), group.pulled[o]? = some ev →
        lawful group.key group.after_seq (group.pulled.take o) ev) :
    ∀ (g : Nat) (group : GroupTask Value), s'.groups[g]? = some group →
      ∀ (o : Nat) (ev : Event Value), group.pulled[o]? = some ev →
        lawful group.key group.after_seq (group.pulled.take o) ev := by
  intro g group' hgroup' o ev hev
  cases htransition.group_change hgroup' with
  | stays hgroup => exact hlawful g group' hgroup o ev hev
  | fresh _ hpulled =>
    rw [hpulled] at hev
    cases hev
  | @cancelled group hgroup _ =>
    have hrounds : ({ group with pc := .cancelled } : GroupTask Value).pulled = group.rounds :=
      List.append_nil _
    rw [hrounds] at hev ⊢
    obtain ⟨hbound, _⟩ := List.getElem?_eq_some_iff.mp hev
    rw [← List.take_append_of_le_length (Nat.le_of_lt hbound)]
    exact hlawful g group hgroup o ev (getElem?_append_of_some hev)
  | @moves group _ turn _ hgroup haction hmoves =>
    have hkey : group'.key = group.key := by
      obtain ⟨htopic, hfilter, _⟩ := hmoves.same_group
      rw [GroupTask.key, GroupTask.key, htopic, hfilter]
    by_cases hresuming : group.pc = .resuming
    · have hnone := hfresh g group hgroup hresuming
      have hsame : group'.pulled = group.pulled := by
        apply hmoves.pulled_eq
        rintro _ rfl
        cases hmoves with
        | pull _ hpc =>
          rw [hpc] at hresuming
          cases hresuming
      rw [hsame, hnone] at hev
      cases hev
    rw [hkey, hmoves.after_seq_eq hresuming]
    by_cases hpull : ∃ pulled, turn = .next (some (.ok pulled))
    · obtain ⟨pulled, rfl⟩ := hpull
      rw [hmoves.pulled_pull] at hev ⊢
      obtain hold | ⟨hle, hnew⟩ := getElem?_append_cases hev
      · obtain ⟨hbound, _⟩ := List.getElem?_eq_some_iff.mp hold
        rw [List.take_append_of_le_length (by omega)]
        exact hlawful g group hgroup o ev hold
      · obtain ⟨hlt, hget⟩ := List.getElem?_eq_some_iff.mp hnew
        simp only [List.length_singleton] at hlt
        simp only [List.getElem_singleton] at hget
        have hlast : o = group.pulled.length := by omega
        subst hget hlast
        rw [List.take_left]
        exact hpulls g _ haction group hgroup
    · have hsame := hmoves.pulled_eq fun pulled heq => hpull ⟨pulled, heq⟩
      rw [hsame] at hev ⊢
      exact hlawful g group hgroup o ev hev

end photon_valence_identity.executor
