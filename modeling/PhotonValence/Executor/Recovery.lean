import PhotonValence.Executor.OneWorker
import PhotonValence.Executor.Work

open photon_backend valence register transition slots

namespace photon_valence_identity.executor

/-- The dispatches are carried out one at a time, in the order in which they
were spawned. -/
def State.Sequential {Value Valence : Type} (s : State Value Valence) : Prop :=
  ∀ (i j : Nat) (task later : DispatchTask Value Valence), s.tasks[i]? = some task → s.tasks[j]? = some later →
    i < j → task.pc.ended = false → later.pc.waiting = true

/-- Dispatch `i` is the first that has not ended. -/
def State.First {Value Valence : Type} (s : State Value Valence) (i : Nat) : Prop :=
  ∀ j < i, ∀ earlier ∈ s.tasks[j]?, earlier.pc.ended = true

theorem Executor.Transition.sequential {Value Actor Valence : Type} {self : Executor Value Actor Valence}
    {s s' : State Value Valence} {action : Action Value} (htransition : self.Transition s action s')
    (hfirst : ∀ i turn, action = .dispatch i turn → s.First i) (hsequential : s.Sequential) : s'.Sequential := by
  intro i j task' later' htask' hlater' hlt hopen
  obtain ⟨later, hlater, _, hlater_pc⟩ | hfresh := htransition.task_origin hlater'
  · obtain ⟨hbound, _⟩ := List.getElem?_eq_some_iff.mp hlater
    have htask := List.getElem?_eq_getElem (Nat.lt_trans hlt hbound)
    obtain ⟨pc', hafter, hpc⟩ := htransition.task htask
    cases Option.some.inj (hafter.symm.trans htask')
    -- the earlier dispatch was unfinished before the step as well
    have hbefore : s.tasks[i].pc.ended = false := by
      obtain rfl | ⟨_, _, _, hmoves⟩ := hpc
      · exact hopen
      · exact hmoves.not_ended
    obtain hsame | ⟨turn, _, haction, _⟩ := hlater_pc
    · rw [hsame]
      exact hsequential i j _ later htask hlater hlt hbefore
    · have hended := hfirst j turn haction i hlt _ htask
      rw [hbefore] at hended
      cases hended
  · rw [hfresh]
    rfl

theorem State.exists_first {Value Valence : Type} {s : State Value Valence} (hunfinished : s.unfinished ≠ 0) :
    ∃ i task, s.tasks[i]? = some task ∧ task.pc.ended = false ∧ s.First i := by
  classical
  obtain ⟨task, hmember, hopen⟩ := List.countP_pos_iff.mp (Nat.pos_of_ne_zero hunfinished)
  obtain ⟨i, htask⟩ := List.mem_iff_getElem?.mp hmember
  have hsome : ∃ (i : Nat) (task : DispatchTask Value Valence), s.tasks[i]? = some task ∧ task.pc.ended = false :=
    ⟨i, task, htask, by simpa using hopen⟩
  obtain ⟨first, hfirst, hopen⟩ := Nat.find_spec hsome
  refine ⟨Nat.find hsome, first, hfirst, hopen, fun j hlt earlier hearlier => ?_⟩
  by_contra hended
  exact Nat.find_min hsome hlt ⟨earlier, hearlier, by simpa using hended⟩

/-- The first dispatch that has not ended can take a turn in which the handler
and the services give the answers they are to give. -/
theorem State.Sequential.exists_turn {Value Actor Valence : Type} {self : Executor Value Actor Valence}
    {s : State Value Valence} (hsequential : s.Sequential) (hsound : Sound self s) (hpool : 0 < self.worker_pool)
    {i : Nat} {task : DispatchTask Value Valence} (htask : s.tasks[i]? = some task) (hopen : task.pc.ended = false)
    (hfirst : s.First i) (answers : DispatchAnswers) :
    ∃ turn s', turn.Gets answers ∧ self.step s (.dispatch i turn) = some s' := by
  obtain hwaiting | hholds | hended := task.pc.waiting_or_holds_or_ended
  · have hnone : ∀ other ∈ s.tasks, other.pc.holds_permit = false := by
      intro other hother
      obtain ⟨j, hj⟩ := List.mem_iff_getElem?.mp hother
      obtain hlt | rfl | hgt := Nat.lt_trichotomy j i
      · have hended := hfirst j hlt other hj
        cases hpc : other.pc <;> simp [hpc, Pc.ended, Pc.holds_permit] at hended ⊢
      · cases Option.some.inj (htask.symm.trans hj)
        rw [Pc.eq_acquire_of_waiting hwaiting]
        rfl
      · rw [Pc.eq_acquire_of_waiting (hsequential i j task other htask hj hgt hopen)]
        rfl
    obtain ⟨s', hstep⟩ := hsound.acquire_of_none_held hpool hnone htask hwaiting
    exact ⟨.acquire, s', trivial, hstep⟩
  · obtain ⟨turn, pc', effects, hgets, hturn, _⟩ := executor.exists_turn self.toDispatchEnv task.args answers hholds
    obtain ⟨s', hstep, _⟩ := Executor.take_turn htask hholds hturn
    exact ⟨turn, s', hgets, hstep⟩
  · rw [hopen] at hended
    cases hended

/-- Over every store there is an answer for the lookup of a handler. -/
theorem Deployment.exists_answer {Value Actor Valence : Type} (d : Deployment Value Actor Valence)
    (h : HandlerDescriptor) : ∃ answer, ∀ slot ∈ read_slot h, answers_from d.checkpoints slot answer := by
  cases hread : read_slot h with
  | none => exact ⟨.ok none, nofun⟩
  | some slot =>
    refine ⟨.ok (greatest d.checkpoints slot), fun read hsame => ?_⟩
    cases hsame
    cases hgreatest : greatest d.checkpoints slot with
    | none =>
      intro hstored
      obtain ⟨⟨_, seq⟩, hentry, rfl⟩ := List.mem_map.mp hstored
      exact greatest_eq_none_iff.mp hgreatest seq hentry
    | some seq => exact (greatest_eq_some_iff.mp hgreatest).1

/-- Turns of the running process alone and pulls from its streams, as orderly as
ever, in which the handlers return as `answer` says. -/
def Undisturbed {Value Actor Valence : Type} (carries : TopicKey → Event Value → Bool)
    (answer : DispatchArgs Value → HandlerEnd) (d : Deployment Value Actor Valence) :
    DeploymentAction Value Actor Valence → Prop
  | .run own => (own.is_turn = true ∨ own.is_pull = true) ∧ Orderly carries d (.run own) ∧
    ∀ i result, own = .dispatch i (.returned result) → ∀ task ∈ d.running.tasks[i]?, result = answer task.args
  | .publish _ | .restart _ => False

/-- A dispatch turn is one of the first dispatch that has not ended, and no
event is lost by it. -/
def Careful {Value Valence : Type} (s : State Value Valence) (own : Action Value) : Prop :=
  ∀ i turn, own = .dispatch i turn → s.First i ∧ turn ≠ .returned .Panic ∧ turn ≠ .dlq_record false

/-- A stream hands out just what is due, one after the other. -/
def NextDue {Value : Type} (carries : TopicKey → Event Value → Bool) (published : List (Event Value))
    (key : TopicKey) (after_seq : Option Int) (pulled : List (Event Value)) (ev : Event Value) : Prop :=
  ∃ a, after_seq = some a ∧ (due carries published key a)[pulled.length]? = some ev

/-- What is due on a stream comes in the order of its seq. -/
theorem Numbered.due_ordered {Value : Type} {carries : TopicKey → Event Value → Bool}
    {published : List (Event Value)} (hnumbered : Numbered published) (key : TopicKey) (a : Int) :
    (due carries published key a).Pairwise fun earlier ev => earlier.seq < ev.seq := by
  have hordered : (due carries published key a).Pairwise
      fun earlier ev => earlier.topic_name = ev.topic_name → earlier.seq < ev.seq := hnumbered.filter _
  refine hordered.imp_of_mem fun {earlier ev} hearlier hev hless => ?_
  obtain ⟨_, hearlier⟩ := List.mem_filter.mp hearlier
  obtain ⟨_, hev⟩ := List.mem_filter.mp hev
  exact hless ((of_decide_eq_true hearlier).1.trans (of_decide_eq_true hev).1.symm)

/-- The next event that is due is handed out by the law, after those before
it. -/
theorem NextDue.hands_out {Value : Type} {carries : TopicKey → Event Value → Bool}
    {published : List (Event Value)} (hnumbered : Numbered published) {key : TopicKey} {after_seq : Option Int}
    {pulled : List (Event Value)} {ev : Event Value} (hdue : NextDue carries published key after_seq pulled ev)
    (hpulled : ∀ (o : Nat) (ev : Event Value), pulled[o]? = some ev →
      NextDue carries published key after_seq (pulled.take o) ev) :
    HandsOut carries published key after_seq pulled ev := by
  obtain ⟨a, rfl, hnext⟩ := hdue
  obtain ⟨hbound, hget⟩ := List.getElem?_eq_some_iff.mp hnext
  obtain ⟨hmem, hkept⟩ := List.mem_filter.mp (List.mem_of_getElem? hnext)
  obtain ⟨htopic, _, hpast⟩ := of_decide_eq_true hkept
  refine ⟨hmem, htopic, ?_⟩
  rintro _ ⟨rfl⟩
  refine ⟨hpast, fun earlier hearlier hless => ?_⟩
  obtain ⟨p, hp, rfl⟩ := List.mem_iff_getElem.mp hearlier
  have hdue_ordered : (due carries published key a).Pairwise fun earlier ev => earlier.seq < ev.seq :=
    hnumbered.due_ordered key a
  have hordered := List.pairwise_iff_getElem.mp hdue_ordered
  -- the earlier event stands before the next one, so it has been pulled
  have hbefore : p < pulled.length := by
    by_contra hafter
    obtain hlt | heq := Nat.lt_or_eq_of_le (Nat.le_of_not_lt hafter)
    · have hmore := hordered pulled.length p hbound hp hlt
      rw [hget] at hmore
      omega
    · subst heq
      rw [hget] at hless
      omega
  obtain ⟨b, hb, hpth⟩ := hpulled p pulled[p] (List.getElem?_eq_getElem hbefore)
  cases hb
  rw [List.length_take_of_le (Nat.le_of_lt hbefore), List.getElem?_eq_getElem hp] at hpth
  rw [Option.some.inj hpth]
  exact List.getElem_mem hbefore

/-- The events that are left at most to be pulled. -/
def State.pulls_left {Value Valence : Type} (published : Nat) (s : State Value Valence) : Nat :=
  published * s.unspawned.length + (s.groups.map fun group => published - group.pulled.length).sum

theorem Executor.pulls_left_step {Value Actor Valence : Type} {self : Executor Value Actor Valence}
    {s s' : State Value Valence} {action : Action Value} {published : Nat}
    (hroom : ∀ g ev, action = .group g (.next (some (.ok ev))) → ∀ group ∈ s.groups[g]?,
      group.pulled.length < published) (hstep : self.step s action = some s') :
    s'.pulls_left published + (if action.is_pull then 1 else 0) ≤ s.pulls_left published := by
  cases transition_of_step hstep with
  | @skip_group key rest hkeys =>
    simp only [State.pulls_left, hkeys, List.length_cons, Action.is_pull, Nat.mul_succ, Bool.false_eq_true, if_false]
    omega
  | @spawn_group key rest hkeys =>
    simp only [State.pulls_left, hkeys, List.length_cons, Action.is_pull, Nat.mul_succ, List.map_append,
      List.sum_append_nat, List.map_cons, List.map_nil, List.sum_singleton, Bool.false_eq_true, if_false]
    omega
  | @group g turn group group' spawned hgroup hmoves =>
    have hgroups : ((s.groups.set g group').map fun group => published - group.pulled.length).sum +
        (published - group.pulled.length) =
          (s.groups.map fun group => published - group.pulled.length).sum + (published - group'.pulled.length) :=
      sum_map_set_add hgroup
    simp only [State.pulls_left]
    by_cases hpull : ∃ ev, turn = .next (some (.ok ev))
    · obtain ⟨ev, rfl⟩ := hpull
      have hlength := hroom g ev rfl group hgroup
      rw [hmoves.pulled_pull, List.length_append, List.length_singleton] at hgroups
      simp only [Action.is_pull, if_true]
      omega
    · rw [hmoves.pulled_eq fun ev heq => hpull ⟨ev, heq⟩] at hgroups
      have hnone : (Action.group g turn).is_pull = false := by
        unfold Action.is_pull
        split
        · rename_i heq
          cases heq
          exact absurd ⟨_, rfl⟩ hpull
        · rfl
      rw [hnone]
      simp only [Bool.false_eq_true, if_false]
      omega
  | dispatch | abort => exact Nat.le_refl _
  | @cancel g group _ hgroup hawaits =>
    have hsame : ({ group with pc := .cancelled } : GroupTask Value).pulled = group.pulled := by
      obtain hpc | hpc := hawaits <;> simp [GroupTask.pulled, GroupTask.current, hpc]
    have hgroups : ((s.groups.set g { group with pc := .cancelled }).map fun group =>
        published - group.pulled.length).sum + (published - group.pulled.length) =
          (s.groups.map fun group => published - group.pulled.length).sum +
            (published - ({ group with pc := .cancelled } : GroupTask Value).pulled.length) :=
      sum_map_set_add hgroup
    rw [hsame] at hgroups
    simp only [State.pulls_left, Action.is_pull, Bool.false_eq_true, if_false]
    omega

/-- What holds of a deployment on its way from a restart to rest. -/
structure Recovering {Value Actor Valence : Type} (carries : TopicKey → Event Value → Bool)
    (registry : HandlerRegistry) (stored : List (Slot × Int)) (restarted d : Deployment Value Actor Valence) :
    Prop where
  deployed : Deployed carries registry stored d
  passed : ∀ h, Resumable registry stored h → d.Passed carries h
  setup_eq : d.setup = restarted.setup
  published_eq : d.published = restarted.published
  unaborted : d.running.aborted = false
  none_over : ∀ (g : Nat) (group : GroupTask Value), d.running.groups[g]? = some group → group.pc.is_over = false
  next_due : ∀ (g : Nat) (group : GroupTask Value), d.running.groups[g]? = some group →
    ∀ (o : Nat) (ev : Event Value), group.pulled[o]? = some ev →
      NextDue carries d.published group.key group.after_seq (group.pulled.take o) ev
  sequential : d.running.Sequential
  none_lost : d.running.NoneLost

/-- A deployment at rest whose streams have nothing left for it. -/
structure Deployment.Rested {Value Actor Valence : Type} (carries : TopicKey → Event Value → Bool)
    (d : Deployment Value Actor Valence) : Prop where
  quiescent : Quiescent d.setup d.running
  caught_up : ∀ group ∈ d.running.groups, group.CaughtUp carries d.published

/-- A step on the way: a turn, or the pull of the next event that is due. -/
structure OnTheWay {Value Actor Valence : Type} (carries : TopicKey → Event Value → Bool)
    (d : Deployment Value Actor Valence) (own : Action Value) : Prop where
  turn_or_pull : own.is_turn = true ∨ own.is_pull = true
  orderly : Orderly carries d (.run own)
  careful : Careful d.running own
  pulls_next : ∀ g ev, own = .group g (.next (some (.ok ev))) → ∀ group ∈ d.running.groups[g]?,
    NextDue carries d.published group.key group.after_seq group.pulled ev

namespace Recovering

section

variable {Value Actor Valence : Type} {carries : TopicKey → Event Value → Bool} {registry : HandlerRegistry}
  {stored : List (Slot × Int)} {restarted d : Deployment Value Actor Valence}

theorem step {own : Action Value} {running : State Value Valence}
    (hrecovering : Recovering carries registry stored restarted d) (hway : OnTheWay carries d own)
    (hrun : d.setup.step d.running own = some running) :
    Recovering carries registry stored restarted { d with running } where
  deployed := hrecovering.deployed.run hway.orderly hrun
  passed := fun h hresumable => hrecovering.deployed.passed_step hresumable (hrecovering.passed h hresumable)
    hway.orderly (Deployment.step_run hrun)
  setup_eq := hrecovering.setup_eq
  published_eq := hrecovering.published_eq
  unaborted := by
    refine ((Executor.transition_of_step hrun).aborted_eq ?_).trans hrecovering.unaborted
    rintro rfl
    obtain hturn | hpull := hway.turn_or_pull
    · cases hturn
    · cases hpull
  none_over := by
    intro g group' hgroup'
    cases (Executor.transition_of_step hrun).group_change hgroup' with
    | stays hgroup => exact hrecovering.none_over g group' hgroup
    | fresh hpc =>
      rw [hpc]
      rfl
    | cancelled _ haction =>
      subst haction
      cases Executor.transition_of_step hrun with
      | cancel haborted =>
        rw [hrecovering.unaborted] at haborted
        cases haborted
    | moves hgroup haction hmoves =>
      subst haction
      have hbefore := hrecovering.none_over g _ hgroup
      cases hmoves with
      | finish =>
        obtain hturn | hpull := hway.turn_or_pull
        · cases hturn
        · cases hpull
      | lookup | stream_error => exact hbefore
      | _ => rfl
  next_due := by
    refine (Executor.transition_of_step hrun).lawful (NextDue carries d.published)
      hrecovering.deployed.reachable.resuming_pulled ?_ hrecovering.next_due
    rintro g ev rfl group hgroup
    exact hway.pulls_next g ev rfl group hgroup
  sequential := (Executor.transition_of_step hrun).sequential (fun i turn heq => (hway.careful i turn heq).1)
    hrecovering.sequential
  none_lost := (Executor.transition_of_step hrun).none_lost (fun i turn heq => (hway.careful i turn heq).2)
    hrecovering.none_lost

/-- A turn that is neither a dispatch turn nor a pull is on the way when it is
orderly. -/
theorem on_the_way {own : Action Value} (hturn : own.is_turn = true) (horderly : Orderly carries d (.run own))
    (hother : ∀ i turn, own ≠ .dispatch i turn) : OnTheWay carries d own where
  turn_or_pull := .inl hturn
  orderly := horderly
  careful := fun i turn heq => absurd heq (hother i turn)
  pulls_next := by
    rintro g ev rfl
    cases hturn

/-- A process whose dispatches have all ended has another turn to take, unless
it is at rest. -/
theorem exists_other_turn (hrecovering : Recovering carries registry stored restarted d)
    (hfinished : d.running.unfinished = 0) (hbusy : ¬ Quiescent d.setup d.running) :
    ∃ own running, OnTheWay carries d own ∧ (∀ i turn, own ≠ .dispatch i turn) ∧
      d.setup.step d.running own = some running := by
  simp only [Quiescent, not_forall] at hbusy
  obtain ⟨own, hturn, hsome⟩ := hbusy
  obtain ⟨running, hrun⟩ := Option.ne_none_iff_exists'.mp hsome
  cases own with
  | abort => cases hturn
  | spawn_group => exact ⟨_, running, on_the_way hturn trivial (by simp), by simp, hrun⟩
  | cancel g =>
    cases Executor.transition_of_step hrun with
    | cancel haborted =>
      rw [hrecovering.unaborted] at haborted
      cases haborted
  | dispatch i turn =>
    obtain ⟨task, _, _, htask, hmoves, _⟩ := Executor.step_dispatch_cases hrun
    have hended : task.pc.ended = true := by
      simpa using List.countP_eq_zero.mp hfinished task (List.mem_of_getElem? htask)
    rw [hmoves.not_ended] at hended
    cases hended
  | group g turn =>
    cases turn with
    | subscribe | spawn => exact ⟨_, running, on_the_way hturn trivial (by simp), by simp, hrun⟩
    | next item => cases hturn
    | lookup given =>
      -- another answer is as good for the lookup itself
      obtain ⟨group, _, _, hgroup, hmoves, _⟩ := Executor.step_group_cases hrun
      cases hmoves with
      | @lookup h _ hpc hnext =>
        obtain ⟨yields, hyields⟩ := d.exists_answer h
        obtain ⟨looked_up, hlookup⟩ : ∃ looked_up,
            d.setup.step d.running (.group g (.lookup yields)) = some looked_up := by
          simp only [Executor.step, hgroup, group_step, hpc, hnext]
          exact ⟨_, rfl⟩
        refine ⟨_, _, on_the_way rfl ?_ (by simp), by simp, hlookup⟩
        intro group' hgroup' h' hh'
        cases Option.some.inj (hgroup.symm.trans hgroup')
        cases Option.some.inj (hnext.symm.trans hh')
        exact hyields

/-- A process at rest can pull another event unless it has caught up. -/
theorem exists_pull (hrecovering : Recovering carries registry stored restarted d)
    (hpool : 0 < d.setup.worker_pool) (hquiet : Quiescent d.setup d.running) (hbehind : ¬ d.Rested carries) :
    ∃ own running, OnTheWay carries d own ∧ (∀ i turn, own ≠ .dispatch i turn) ∧
      d.setup.step d.running own = some running := by
  have hdone := hquiet.wound_up hrecovering.deployed.sound hpool
  obtain ⟨group, hmem, hmissing⟩ : ∃ group ∈ d.running.groups, ¬ group.CaughtUp carries d.published := by
    by_contra hall
    simp only [not_exists, not_and, not_not] at hall
    exact hbehind ⟨hquiet, hall⟩
  obtain ⟨g, hgroup⟩ := List.mem_iff_getElem?.mp hmem
  have hpolling : group.pc = .polling := by
    obtain hover | ⟨_, hpolling⟩ := hdone.groups_done group hmem
    · rw [hrecovering.none_over g group hgroup] at hover
      cases hover
    · exact hpolling
  obtain ⟨a, hafter, missing, hdue, habsent⟩ : ∃ a, group.after_seq = some a ∧
      ∃ ev ∈ due carries d.published group.key a, ev ∉ group.pulled := by
    by_contra hall
    refine hmissing ⟨hpolling, fun a ha ev hev => ?_⟩
    by_contra habsent
    exact hall ⟨a, ha, ev, hev, habsent⟩
  have hprefix : ∀ (o : Nat) (ev : Event Value), group.pulled[o]? = some ev →
      (due carries d.published group.key a)[o]? = some ev := by
    intro o ev hev
    obtain ⟨hbound, _⟩ := List.getElem?_eq_some_iff.mp hev
    obtain ⟨b, hb, hget⟩ := hrecovering.next_due g group hgroup o ev hev
    cases Option.some.inj (hafter.symm.trans hb)
    rwa [List.length_take_of_le (Nat.le_of_lt hbound)] at hget
  -- the missing event stands after all that was pulled, so there is a next one
  obtain ⟨p, hp, rfl⟩ := List.mem_iff_getElem.mp hdue
  have hlater : group.pulled.length ≤ p := by
    by_contra hbefore
    have hget := hprefix p _ (List.getElem?_eq_getElem (Nat.lt_of_not_le hbefore))
    rw [List.getElem?_eq_getElem hp] at hget
    rw [Option.some.inj hget] at habsent
    exact habsent (List.getElem_mem _)
  obtain ⟨ev, hev⟩ : ∃ ev, (due carries d.published group.key a)[group.pulled.length]? = some ev :=
    ⟨_, List.getElem?_eq_getElem (Nat.lt_of_le_of_lt hlater hp)⟩
  have hnext : NextDue carries d.published group.key group.after_seq group.pulled ev := ⟨a, hafter, hev⟩
  obtain ⟨running, hrun⟩ : ∃ running,
      d.setup.step d.running (.group g (.next (some (.ok ev)))) = some running := by
    simp only [Executor.step, hgroup, group_step, hpolling]
    exact ⟨_, rfl⟩
  refine ⟨_, running, ⟨.inr rfl, ?_, by simp [Careful], ?_⟩, by simp, hrun⟩
  · intro group' hgroup'
    cases Option.some.inj (hgroup.symm.trans hgroup')
    exact hnext.hands_out hrecovering.deployed.numbered (hrecovering.next_due g group hgroup)
  · rintro _ _ ⟨rfl⟩ group' hgroup'
    cases Option.some.inj (hgroup.symm.trans hgroup')
    exact hnext

/-- A process with unfinished dispatches can carry on with the first of them. -/
theorem exists_dispatch_turn (hrecovering : Recovering carries registry stored restarted d)
    (hpool : 0 < d.setup.worker_pool) {answer : DispatchArgs Value → HandlerEnd}
    (hreturns : ∀ args, answer args ≠ .Panic) (hunfinished : d.running.unfinished ≠ 0) :
    ∃ own running, Undisturbed carries answer d (.run own) ∧ OnTheWay carries d own ∧
      d.setup.step d.running own = some running := by
  obtain ⟨i, task, htask, hopen, hfirst⟩ := State.exists_first hunfinished
  obtain ⟨turn, running, hgets, hstep⟩ := hrecovering.sequential.exists_turn hrecovering.deployed.sound hpool htask
    hopen hfirst ⟨answer task.args, true, true⟩
  have horderly : Orderly carries d (.run (.dispatch i turn)) := by
    show ReturnsInOrder d.running (.dispatch i turn)
    unfold ReturnsInOrder
    split
    · rename_i heq
      cases heq
      intro _ _ _ _ j hlt earlier hearlier _ _
      exact hrecovering.none_lost earlier (List.mem_of_getElem? hearlier) (hfirst j hlt earlier hearlier)
    · trivial
  refine ⟨.dispatch i turn, running, ⟨.inl rfl, horderly, ?_⟩, ⟨.inl rfl, horderly, ?_, nofun⟩, hstep⟩
  · intro j result heq task' htask'
    cases heq
    cases Option.some.inj (htask.symm.trans htask')
    exact hgets
  · intro j turn' heq
    cases heq
    refine ⟨hfirst, ?_, ?_⟩
    · rintro rfl
      exact hreturns _ hgets.symm
    · rintro rfl
      cases hgets

/-- There is a step to take on the way unless the deployment has rested. -/
theorem exists_step (hrecovering : Recovering carries registry stored restarted d)
    (hpool : 0 < d.setup.worker_pool) {answer : DispatchArgs Value → HandlerEnd}
    (hreturns : ∀ args, answer args ≠ .Panic) (hbusy : ¬ d.Rested carries) :
    ∃ own running, Undisturbed carries answer d (.run own) ∧ OnTheWay carries d own ∧
      d.setup.step d.running own = some running := by
  by_cases hfinished : d.running.unfinished = 0
  · have hother : ∃ own running, OnTheWay carries d own ∧ (∀ i turn, own ≠ .dispatch i turn) ∧
        d.setup.step d.running own = some running := by
      by_cases hquiet : Quiescent d.setup d.running
      · exact hrecovering.exists_pull hpool hquiet hbusy
      · exact hrecovering.exists_other_turn hfinished hquiet
    obtain ⟨own, running, hway, hother, hrun⟩ := hother
    exact ⟨own, running, ⟨hway.turn_or_pull, hway.orderly, fun i _ heq => absurd heq (hother i _)⟩, hway, hrun⟩
  · exact hrecovering.exists_dispatch_turn hpool hreturns hfinished

/-- A step on the way leaves less to do. -/
theorem fuel_lt {own : Action Value} {running : State Value Valence}
    (hrecovering : Recovering carries registry stored restarted d) (hway : OnTheWay carries d own)
    (hrun : d.setup.step d.running own = some running) :
    d.setup.turns_left running + (d.setup.pull_turns + 1) * running.pulls_left d.published.length <
      d.setup.turns_left d.running + (d.setup.pull_turns + 1) * d.running.pulls_left d.published.length := by
  have hturns := Executor.turns_left_step hrecovering.deployed.sound hrun
  have hroom : ∀ g ev, own = .group g (.next (some (.ok ev))) → ∀ group ∈ d.running.groups[g]?,
      group.pulled.length < d.published.length := by
    intro g ev heq group hgroup
    obtain ⟨a, _, hdue⟩ := hway.pulls_next g ev heq group hgroup
    have hbound := (List.getElem?_eq_some_iff.mp hdue).1
    exact Nat.lt_of_lt_of_le hbound (List.length_filter_le _ _)
  have hpulls := Executor.pulls_left_step hroom hrun
  cases hpull : own.is_pull with
  | true =>
    rw [hpull] at hturns hpulls
    simp only [if_true] at hturns hpulls
    have hless := Nat.mul_le_mul_left (d.setup.pull_turns + 1) hpulls
    rw [Nat.mul_succ] at hless
    omega
  | false =>
    have hturn : own.is_turn = true := by
      obtain hturn | hpull' := hway.turn_or_pull
      · exact hturn
      · rw [hpull] at hpull'
        cases hpull'
    rw [hpull] at hturns hpulls
    rw [hturn] at hturns
    simp only [if_true, Bool.false_eq_true, if_false, Nat.add_zero] at hturns hpulls
    have hless := Nat.mul_le_mul_left (d.setup.pull_turns + 1) hpulls
    omega

end

end Recovering

section

variable {Value Actor Valence : Type} {carries : TopicKey → Event Value → Bool} {registry : HandlerRegistry}
  {first : Executor Value Actor Valence} {published : List (Event Value)} {stored : List (Slot × Int)}
  {d : Deployment Value Actor Valence} {h : HandlerDescriptor}

/-- A process at rest that has caught up with the stream of a resumable handler
has handled every event the handler is owed, or has lost it to a panic of the
handler or a failure of the DLQ. -/
theorem Deployed.delivered_at_rest (hdeployed : Deployed carries registry stored d)
    (hresumable : Resumable registry stored h) (hpassed : d.Passed carries h) (hpool : 0 < d.setup.worker_pool)
    (hquiet : Quiescent d.setup d.running)
    (hcaught : ∀ group ∈ d.running.groups, group.key = h.topicKey → group.CaughtUp carries d.published)
    {ev : Event Value} (howes : d.Owes carries h ev) :
    d.Handled h ev ∨ ∃ task ∈ d.running.tasks, task.args = routed_args h ev ∧ task.pc.lost = true := by
  have hdone := hquiet.wound_up hdeployed.sound hpool
  have hregistered : h ∈ d.setup.registry.iter := by
    rw [hdeployed.handlers_eq]
    exact hresumable.registered
  obtain ⟨g, group, k, hgroup, hk⟩ := hdeployed.sound.registered hdone.returned hregistered
  have hkey : group.key = h.topicKey :=
    ((hdeployed.mem_handlers_iff hgroup).mp (List.mem_of_getElem? hk)).2.symm
  obtain hhandled | ⟨task, htask, _, hargs⟩ := (hdeployed.at_least_once hresumable hpassed).caught_up g group hgroup
    hkey (hcaught group (List.mem_of_getElem? hgroup) hkey) ev howes
  · exact .inl hhandled
  · have hended : task.pc.ended = true := by simpa using List.countP_eq_zero.mp hdone.finished task htask
    obtain hsettled | hlost := Pc.settled_or_lost hended
    · exact .inl ⟨_, List.mem_append_right _ (.head _), task, htask, hargs, hsettled⟩
    · exact .inr ⟨task, htask, hargs, hlost⟩

/-- Wherever the process of an orderly deployment comes to rest and has caught
up with the stream of a resumable handler, every event the handler is owed has
been handled in some process, or lost in the running one. -/
theorem quiescent_has_delivered (hresumable : Resumable first.registry stored h) (hpublished : Numbered published)
    (hrun : Steps Deployment.step (Orderly carries) (.start first published stored) d)
    (hpool : 0 < d.setup.worker_pool) (hquiet : Quiescent d.setup d.running)
    (hcaught : ∀ group ∈ d.running.groups, group.key = h.topicKey → group.CaughtUp carries d.published) :
    ∀ ev, d.Owes carries h ev → d.Handled h ev ∨
      ∃ task ∈ d.running.tasks, task.args = routed_args h ev ∧ task.pc.lost = true := by
  intro ev howes
  exact (Deployed.of_steps hpublished hrun).delivered_at_rest hresumable
    (Deployed.passed_of_steps hresumable hpublished hrun) hpool hquiet hcaught howes

end

/-- The process that was started again carries its dispatches out. -/
def coming_to_rest : List (DeploymentAction ActorJson Actor Actor) :=
  restarting ++ [Action.dispatch 0 .acquire, .dispatch 1 .acquire, .dispatch 0 .gate, .dispatch 0 .build,
    .dispatch 0 .invoke, .dispatch 1 .gate, .dispatch 1 .build, .dispatch 1 .invoke,
    .dispatch 0 (.returned .Ok), .dispatch 1 (.returned (.Err "no stock")), .dispatch 0 .coalescer_record,
    .dispatch 0 (.recorded false), .dispatch 1 (.dlq_record true), .dispatch 2 .acquire, .dispatch 2 .gate,
    .dispatch 2 .build, .dispatch 2 .invoke, .dispatch 2 (.returned .Panic)].map fun action => .run action

theorem quiescent_has_delivered_at_rest : ∃ d : Deployment ActorJson Actor Actor,
    execute Deployment.step (.start billing_executor [orders_event none 1, orders_event none 2]
      [(("billing", "orders", none), 0)]) coming_to_rest = some d ∧ Quiescent d.setup d.running ∧
    ∀ ev, d.Owes exact_key (orders_handler (some "billing") none .Durable 0) ev →
      d.Handled (orders_handler (some "billing") none .Durable 0) ev ∨
        ∃ task ∈ d.running.tasks, task.args = routed_args (orders_handler (some "billing") none .Durable 0) ev ∧
          task.pc.lost = true := by
  obtain ⟨d, group, hexecute, hgroups, hover, hafter, hdue, hdone, hpool⟩ : ∃ (d : Deployment ActorJson Actor Actor)
      (group : GroupTask ActorJson),
      execute Deployment.step (.start billing_executor [orders_event none 1, orders_event none 2]
        [(("billing", "orders", none), 0)]) coming_to_rest = some d ∧ d.running.groups = [group] ∧
        group.pc = .polling ∧ group.after_seq = some 1 ∧
        (∀ ev ∈ due exact_key d.published group.key 1, ev ∈ group.pulled) ∧
        (d.running.unspawned = [] ∧ d.running.aborted = false ∧ d.running.unfinished = 0 ∧
          d.running.permits = d.setup.worker_pool) ∧ 0 < d.setup.worker_pool :=
    ⟨_, _, rfl, rfl, rfl, rfl, by decide, ⟨rfl, rfl, rfl, rfl⟩, Nat.zero_lt_two⟩
  have hcaught : ∀ other ∈ d.running.groups, other.CaughtUp exact_key d.published := by
    rw [hgroups]
    intro other hother
    cases List.mem_singleton.mp hother
    refine ⟨hover, ?_⟩
    rw [hafter]
    rintro _ ⟨rfl⟩
    exact hdue
  obtain ⟨hreturned, haborted, hfinished, hpermits⟩ := hdone
  have hquiet : Quiescent d.setup d.running :=
    WoundUp.quiescent ⟨hreturned, fun other hother => .inr ⟨haborted, (hcaught other hother).1⟩, hfinished, hpermits⟩
  exact ⟨d, hexecute, hquiet, quiescent_has_delivered billing_resumable (by simp [Numbered, orders_event])
    (execute_steps coming_to_rest (by decide) hexecute) hpool hquiet fun other hother _ => hcaught other hother⟩

theorem Pc.not_settled_of_lost {Valence : Type} {pc : Pc Valence} (hlost : pc.lost = true) :
    pc.ended = true ∧ pc.settled = false := by
  cases pc with
  | panicked => exact ⟨rfl, rfl⟩
  | dead_lettered _ stored => cases stored <;> simp_all [lost, ended, settled]
  | _ => cases hlost

/-- A deployment can always recover. Whatever its process was doing or has lost,
the next one can come to rest, caught up with its streams, by its own turns and
pulls that keep to the law, whatever its handlers return; and then every event
that was owed to a resumable handler has been handled. -/
theorem always_recovers {Value Actor Valence : Type} {carries : TopicKey → Event Value → Bool}
    {first setup : Executor Value Actor Valence} {published : List (Event Value)} {stored : List (Slot × Int)}
    {d : Deployment Value Actor Valence} {answer : DispatchArgs Value → HandlerEnd} (hpublished : Numbered published)
    (hrun : Steps Deployment.step (Orderly carries) (.start first published stored) d)
    (hsame : setup.registry.iter = d.setup.registry.iter) (hpool : 0 < setup.worker_pool)
    (hreturns : ∀ args, answer args ≠ .Panic) :
    ∃ restarted recovered, d.step (.restart setup) = some restarted ∧
      Steps Deployment.step (Undisturbed carries answer) restarted recovered ∧ recovered.Rested carries ∧
      ∀ h, Resumable first.registry stored h → ∀ ev, d.Owes carries h ev → recovered.Handled h ev := by
  have hdeployed := Deployed.of_steps hpublished hrun
  have horderly : Orderly carries d (.restart setup) := hsame
  obtain ⟨restarted, hrestart⟩ : ∃ restarted, d.step (.restart setup) = some restarted := ⟨_, rfl⟩
  have hstart : Recovering carries first.registry stored restarted restarted := by
    have hpassed : ∀ h, Resumable first.registry stored h → restarted.Passed carries h := fun h hresumable =>
      hdeployed.passed_step hresumable (Deployed.passed_of_steps hresumable hpublished hrun) horderly hrestart
    have hnext := hdeployed.step horderly hrestart
    cases hrestart
    exact ⟨hnext, hpassed, rfl, rfl, rfl, by simp [Executor.start], by simp [Executor.start],
      by simp [State.Sequential, Executor.start], by simp [State.NoneLost, Executor.start]⟩
  have hsetup : restarted.setup = setup ∧ restarted.published = d.published := by
    cases hrestart
    exact ⟨rfl, rfl⟩
  have hpools : ∀ {state : Deployment Value Actor Valence}, Recovering carries first.registry stored restarted state →
      0 < state.setup.worker_pool := by
    intro state hstate
    rw [hstate.setup_eq, hsetup.1]
    exact hpool
  have hgoes : ∀ state : Deployment Value Actor Valence, Recovering carries first.registry stored restarted state →
      ¬ state.Rested carries → ∃ action after, Undisturbed carries answer state action ∧
        state.step action = some after ∧ Recovering carries first.registry stored restarted after ∧
        after.setup.turns_left after.running +
            (after.setup.pull_turns + 1) * after.running.pulls_left after.published.length <
          state.setup.turns_left state.running +
            (state.setup.pull_turns + 1) * state.running.pulls_left state.published.length := by
    intro state hstate hbusy
    obtain ⟨own, running, hundisturbed, hway, hown⟩ := hstate.exists_step (hpools hstate) hreturns hbusy
    exact ⟨.run own, _, hundisturbed, Deployment.step_run hown, hstate.step hway hown, hstate.fuel_lt hway hown⟩
  obtain ⟨recovered, hrecovery, hrecovered, hrested⟩ := exists_at_rest hgoes hstart
  refine ⟨restarted, recovered, hrestart, hrecovery, hrested, fun h hresumable ev howes => ?_⟩
  have howes' : recovered.Owes carries h ev := by
    refine ⟨?_, howes.carried, howes.takes, ?_⟩
    · rw [hrecovered.published_eq, hsetup.2]
      exact howes.published
    · rw [hrecovered.deployed.stored_eq, ← hdeployed.stored_eq]
      exact howes.after_stored
  obtain hhandled | ⟨task, htask, _, hlost⟩ := hrecovered.deployed.delivered_at_rest hresumable
    (hrecovered.passed h hresumable) (hpools hrecovered) hrested.quiescent
    (fun group hgroup _ => hrested.caught_up group hgroup) howes'
  · exact hhandled
  · obtain ⟨hended, hunsettled⟩ := Pc.not_settled_of_lost hlost
    rw [hrecovered.none_lost task htask hended] at hunsettled
    cases hunsettled

/-- A handler panics, and the handle is dropped. -/
def going_down : List (DeploymentAction ActorJson Actor Actor) :=
  restarting.take 10 ++ [Action.dispatch 0 (.returned .Panic), .abort, .cancel 0].map fun action => .run action

theorem always_recovers_going_down : ∃ d restarted recovered : Deployment ActorJson Actor Actor,
    execute Deployment.step (.start billing_executor [orders_event none 1, orders_event none 2]
      [(("billing", "orders", none), 0)]) going_down = some d ∧ d.step (.restart billing_executor) = some restarted ∧
    Steps Deployment.step (Undisturbed exact_key fun _ => .Ok) restarted recovered ∧
    recovered.Handled (orders_handler (some "billing") none .Durable 0) (orders_event none 1) := by
  obtain ⟨d, hexecute, hiter, howes⟩ : ∃ d : Deployment ActorJson Actor Actor,
      execute Deployment.step (.start billing_executor [orders_event none 1, orders_event none 2]
        [(("billing", "orders", none), 0)]) going_down = some d ∧
        billing_executor.registry.iter = d.setup.registry.iter ∧
        d.Owes exact_key (orders_handler (some "billing") none .Durable 0) (orders_event none 1) := by
    refine ⟨_, rfl, rfl, .head _, rfl, rfl, ?_⟩
    rintro slot ⟨rfl⟩ seq hstored
    cases List.mem_singleton.mp hstored
    decide
  have hreturns : ∀ args : DispatchArgs ActorJson, (fun _ => HandlerEnd.Ok) args ≠ .Panic := by
    intro args heq
    cases heq
  have hrun : Steps Deployment.step (Orderly exact_key) _ d := execute_steps going_down (by decide) hexecute
  obtain ⟨restarted, recovered, hrestart, hrecovery, _, hall⟩ := always_recovers (by simp [Numbered, orders_event])
    hrun hiter Nat.zero_lt_two hreturns
  exact ⟨d, restarted, recovered, hexecute, hrestart, hrecovery, hall _ billing_resumable _ howes⟩

end photon_valence_identity.executor
