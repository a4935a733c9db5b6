import PhotonValence.Executor.Deployment

open photon_backend valence register transition slots

namespace photon_valence_identity.executor

/-- The durable handler can resume without a gap: no other durable handler of
its topic has its subscription name, and every durable handler of its group has
a name and a checkpoint to start from. -/
structure Resumable (registry : HandlerRegistry) (stored : List (Slot × Int)) (h : HandlerDescriptor) :
    Prop where
  registered : h ∈ registry.iter
  durable : h.mode = .Durable
  own_name : ∀ other ∈ registry.iter, other.mode = .Durable → other.topic_name = h.topic_name →
    other.subscription_name = h.subscription_name → other = h
  checkpointed : ∀ member ∈ registry.iter, member.topicKey = h.topicKey → member.mode = .Durable →
    ∃ slot ∈ read_slot member, ∃ entry ∈ stored, entry.1 = slot

/-- What holds in every state of an orderly deployment. -/
structure Deployed {Value Actor Valence : Type} (carries : TopicKey → Event Value → Bool)
    (registry : HandlerRegistry) (stored : List (Slot × Int)) (d : Deployment Value Actor Valence) : Prop where
  handlers_eq : d.setup.registry.iter = registry.iter
  stored_eq : d.stored = stored
  reachable : d.setup.Reachable anyStep d.running
  in_order : ∀ g k, d.running.InOrder g k
  numbered : Numbered d.published
  lawful : d.Lawful carries
  looked_up : d.running.Answered fun slot answer => (∃ entry ∈ d.stored, entry.1 = slot) →
    ∃ seq, answer = .ok (some seq) ∧ (slot, seq) ∈ d.checkpoints
  recorded : ∀ slot seq, (slot, seq) ∈ d.checkpoints → (slot, seq) ∈ d.stored ∨
    ∃ ev ∈ d.published, ev.topic_name = slot.2.1 ∧ ev.seq = seq

/-- Events of one topic with one number are one event. -/
theorem Numbered.eq_of_seq_eq {Value : Type} {published : List (Event Value)} (hnumbered : Numbered published)
    {ev other : Event Value} (hev : ev ∈ published) (hother : other ∈ published)
    (htopic : ev.topic_name = other.topic_name) (hseq : ev.seq = other.seq) : ev = other := by
  obtain ⟨i, hi, rfl⟩ := List.mem_iff_getElem.mp hev
  obtain ⟨j, hj, rfl⟩ := List.mem_iff_getElem.mp hother
  have hpairwise := List.pairwise_iff_getElem.mp hnumbered
  obtain hlt | heq | hgt := Nat.lt_trichotomy i j
  · have hless := hpairwise i j hi hj hlt htopic
    omega
  · subst heq
    rfl
  · have hless := hpairwise j i hj hi hgt htopic.symm
    omega

namespace Deployed

section

variable {Value Actor Valence : Type} {carries : TopicKey → Event Value → Bool} {registry : HandlerRegistry}
  {stored : List (Slot × Int)} {d d' : Deployment Value Actor Valence}

theorem sound (hdeployed : Deployed carries registry stored d) : Sound d.setup d.running :=
  hdeployed.reachable.sound

theorem start (first : Executor Value Actor Valence) {published : List (Event Value)}
    (hpublished : Numbered published) (stored : List (Slot × Int)) :
    Deployed carries first.registry stored (.start first published stored) where
  handlers_eq := rfl
  stored_eq := rfl
  reachable := .refl _
  in_order := by simp [State.InOrder, Deployment.start, Executor.start]
  numbered := hpublished
  lawful := by simp [Deployment.Lawful, Deployment.start, Executor.start]
  looked_up := State.answered_start _ _
  recorded := by
    intro slot seq hmem
    obtain hstored | ⟨_, hpast, _⟩ | hrunning := Deployment.mem_checkpoints_iff.mp hmem
    · exact .inl hstored
    · cases hpast
    · cases hrunning

/-- An event is published. -/
theorem publish {ev : Event Value} (hdeployed : Deployed carries registry stored d)
    (horderly : Orderly carries d (.publish ev)) :
    Deployed carries registry stored { d with published := d.published ++ [ev] } where
  handlers_eq := hdeployed.handlers_eq
  stored_eq := hdeployed.stored_eq
  reachable := hdeployed.reachable
  in_order := hdeployed.in_order
  numbered := by
    rw [Numbered, List.pairwise_append]
    refine ⟨hdeployed.numbered, List.pairwise_singleton _ _, ?_⟩
    intro earlier hearlier last hlast
    rw [List.mem_singleton.mp hlast]
    exact horderly earlier hearlier
  lawful := fun g group hgroup o pulled hpulled => (hdeployed.lawful g group hgroup o pulled hpulled).publish horderly
  looked_up := hdeployed.looked_up
  recorded := by
    intro slot seq hmem
    obtain hstored | ⟨source, hsource, hslot⟩ := hdeployed.recorded slot seq hmem
    · exact .inl hstored
    · exact .inr ⟨source, List.mem_append_left _ hsource, hslot⟩

/-- What a group has pulled was published for its topic. -/
theorem pulled_published (hdeployed : Deployed carries registry stored d) {g : Nat} {group : GroupTask Value}
    (hgroup : d.running.groups[g]? = some group) {ev : Event Value} (hev : ev ∈ group.pulled) :
    ev ∈ d.published ∧ ev.topic_name = group.topic_name := by
  obtain ⟨o, ho⟩ := List.mem_iff_getElem?.mp hev
  obtain ⟨hpublished, htopic, _⟩ := hdeployed.lawful g group hgroup o ev ho
  exact ⟨hpublished, htopic⟩

/-- The running process goes on. -/
theorem run {own : Action Value} {running : State Value Valence} (hdeployed : Deployed carries registry stored d)
    (horderly : Orderly carries d (.run own)) (hrun : d.setup.step d.running own = some running) :
    Deployed carries registry stored { d with running } where
  handlers_eq := hdeployed.handlers_eq
  stored_eq := hdeployed.stored_eq
  reachable := .tail hdeployed.reachable trivial hrun
  in_order g k := by
    refine (Executor.transition_of_step hrun).in_order ?_ (hdeployed.in_order g k)
    cases own with
    | dispatch i turn => exact fun _ _ _ _ => horderly
    | _ => trivial
  numbered := hdeployed.numbered
  lawful := by
    refine (Executor.transition_of_step hrun).lawful (HandsOut carries d.published)
      hdeployed.reachable.resuming_pulled ?_ hdeployed.lawful
    rintro g ev rfl group hgroup
    exact horderly group hgroup
  looked_up := by
    have hgrows := Deployment.checkpoints_subset (Deployment.step_run hrun)
    refine State.Answered.step (hdeployed.looked_up.imp ?_) hrun ?_
    · intro slot answer hold hstored
      obtain ⟨seq, hseq, hmem⟩ := hold hstored
      exact ⟨seq, hseq, hgrows hmem⟩
    · rintro g answer rfl group hgroup h hh slot hslot ⟨entry, hentry, rfl⟩
      have hyields := horderly group hgroup h hh _ hslot
      cases answer with
      | error => exact hyields.elim
      | ok found =>
        cases found with
        | none =>
          refine absurd (List.mem_map_of_mem ?_) hyields
          exact Deployment.mem_checkpoints_iff.mpr (.inl hentry)
        | some seq => exact ⟨seq, rfl, hgrows hyields⟩
  recorded := by
    intro slot seq hmem
    rw [Deployment.mem_checkpoints_iff] at hmem
    obtain hstored | hpast | hrunning := hmem
    · exact .inl hstored
    · exact hdeployed.recorded slot seq (Deployment.mem_checkpoints_iff.mpr (.inr (.inl hpast)))
    · have hold : (slot, seq) ∈ d.running.checkpoints → _ := fun hbefore =>
        hdeployed.recorded slot seq (Deployment.mem_checkpoints_iff.mpr (.inr (.inr hbefore)))
      obtain hsame | ⟨i, task, name, htask, _, happend⟩ := (Executor.transition_of_step hrun).checkpoints
      · rw [hsame] at hrunning
        exact hold hrunning
      · rw [happend] at hrunning
        obtain hbefore | hnew := List.mem_append.mp hrunning
        · exact hold hbefore
        · cases List.mem_singleton.mp hnew
          obtain ⟨_, ⟨group, hgroup, _, hpulled, _⟩, hargs⟩ := hdeployed.sound.takes_of_getElem? htask
          refine .inr ⟨task.args.ev, (hdeployed.pulled_published hgroup (List.mem_of_getElem? hpulled)).1, ?_, rfl⟩
          rw [hargs]
          rfl

/-- The next process starts. -/
theorem restart {setup : Executor Value Actor Valence} (hdeployed : Deployed carries registry stored d)
    (horderly : Orderly carries d (.restart setup)) :
    Deployed carries registry stored { d with
      setup
      running := setup.start
      past := d.past ++ [d.running] } where
  handlers_eq := horderly.trans hdeployed.handlers_eq
  stored_eq := hdeployed.stored_eq
  reachable := .refl _
  in_order := by simp [State.InOrder, Executor.start]
  numbered := hdeployed.numbered
  lawful := by simp [Deployment.Lawful, Executor.start]
  looked_up := State.answered_start _ _
  recorded slot seq hmem := hdeployed.recorded slot seq (Deployment.mem_checkpoints_restart.mp hmem)

/-- Every orderly step keeps the invariant. -/
theorem step {action : DeploymentAction Value Actor Valence} (hdeployed : Deployed carries registry stored d)
    (horderly : Orderly carries d action) (hstep : d.step action = some d') :
    Deployed carries registry stored d' := by
  obtain ⟨ev, rfl, rfl⟩ | ⟨own, running, rfl, hrun, rfl⟩ | ⟨setup, rfl, rfl⟩ := Deployment.step_cases hstep
  · exact hdeployed.publish horderly
  · exact hdeployed.run horderly hrun
  · exact hdeployed.restart horderly

/-- The handlers of a group are the registered ones of its key. -/
theorem mem_handlers_iff (hdeployed : Deployed carries registry stored d) {g : Nat}
    {group : GroupTask Value} (hgroup : d.running.groups[g]? = some group) {h : HandlerDescriptor} :
    h ∈ group.handlers ↔ h ∈ registry.iter ∧ h.topicKey = group.key := by
  rw [hdeployed.sound.handlers_eq group (List.mem_of_getElem? hgroup), HandlerRegistry.handlers_for_topic_key_eq,
    hdeployed.handlers_eq, List.mem_filter, decide_eq_true_eq]
  rfl

/-- A group that has looked up its checkpoints resumes at or before one of each
of its resumable handlers. -/
theorem resumes (hdeployed : Deployed carries registry stored d) {h : HandlerDescriptor}
    (hresumable : Resumable registry stored h) {g : Nat} {group : GroupTask Value}
    (hgroup : d.running.groups[g]? = some group) (hkey : group.key = h.topicKey)
    (hlooked : group.handlers.length ≤ group.answers.length) :
    ∃ a, group.after_seq = some a ∧ ∃ slot ∈ read_slot h, ∃ seq, (slot, seq) ∈ d.checkpoints ∧ a ≤ seq := by
  have hanswered : ∀ (j : Nat) (member : HandlerDescriptor) (answer : CheckpointAnswer),
      group.handlers[j]? = some member → group.answers[j]? = some answer → member.mode = .Durable →
        ∃ slot ∈ read_slot member, ∃ seq, answer = .ok (some seq) ∧ (slot, seq) ∈ d.checkpoints := by
    intro j member answer hj hanswer hmode
    obtain ⟨hregistered, hsame⟩ := (hdeployed.mem_handlers_iff hgroup).mp (List.mem_of_getElem? hj)
    obtain ⟨slot, hslot, hstored⟩ := hresumable.checkpointed member hregistered (hsame.trans hkey) hmode
    rw [← hdeployed.stored_eq] at hstored
    exact ⟨slot, hslot, hdeployed.looked_up g group hgroup j member answer hj hanswer slot hslot hstored⟩
  have hall : AllCheckpointed group.calls := by
    intro call hcall hmode
    obtain ⟨j, member, answer, hmember, hanswer, rfl⟩ := GroupTask.mem_calls_iff.mp hcall
    obtain ⟨slot, hslot, seq, rfl, _⟩ := hanswered j member answer hmember hanswer hmode
    exact ⟨slot.1, seq, (read_slot_eq_some_iff.mp hslot).2.1, rfl⟩
  have hmember : h ∈ group.handlers :=
    (hdeployed.mem_handlers_iff hgroup).mpr ⟨hresumable.registered, hkey.symm⟩
  obtain ⟨j, answer, hj, hanswer, hcall⟩ := GroupTask.call_of_mem hlooked hmember
  obtain ⟨slot, hslot, seq, rfl, hrecorded⟩ := hanswered j h answer hj hanswer hresumable.durable
  have hcheckpoint : checkpoint h (fun _ => .ok (some seq)) = some seq :=
    checkpoint_eq_some_iff.mpr ⟨slot.1, (read_slot_eq_some_iff.mp hslot).2.1, rfl⟩
  obtain ⟨a, ha, hle⟩ := result_le_checkpoint hall hcall hresumable.durable hcheckpoint
  rw [← hdeployed.reachable.scanned g group hgroup] at ha
  exact ⟨a, ha, slot, hslot, seq, hrecorded, hle⟩

end

end Deployed

/-- No checkpoint of the handler has passed an event it is owed and has not
handled. -/
def Deployment.Passed {Value Actor Valence : Type} (carries : TopicKey → Event Value → Bool)
    (d : Deployment Value Actor Valence) (h : HandlerDescriptor) : Prop :=
  ∀ slot ∈ read_slot h, ∀ seq, (slot, seq) ∈ d.checkpoints → ∀ ev, d.Owes carries h ev → ev.seq ≤ seq →
    d.Handled h ev

namespace Deployed

section

variable {Value Actor Valence : Type} {carries : TopicKey → Event Value → Bool} {registry : HandlerRegistry}
  {stored : List (Slot × Int)} {d d' : Deployment Value Actor Valence} {h : HandlerDescriptor}

/-- What a handler is owed past the resume point of its group is due on the
group's stream. -/
theorem mem_due {ev : Event Value} (howes : d.Owes carries h ev) {a : Int} (hpast : a < ev.seq) :
    ev ∈ due carries d.published h.topicKey a := by
  obtain ⟨htopic, _⟩ := (HandlerDescriptor.matches_event_iff _ _ _).mp howes.takes
  exact List.mem_filter.mpr ⟨howes.published, decide_eq_true ⟨htopic.symm, howes.carried, hpast⟩⟩

/-- When a dispatch of a resumable handler has returned Ok, everything the
handler is owed up to its event has been handled. -/
theorem handled_of_returned (hdeployed : Deployed carries registry stored d)
    (hresumable : Resumable registry stored h) (hpassed : d.Passed carries h) {i : Nat}
    {task : DispatchTask Value Valence} (htask : d.running.tasks[i]? = some task)
    (hreturned : task.pc.returned_ok = true) {slot : Slot} (hslot : slot ∈ read_slot h)
    (hwrites : task.args.slot = some slot) {ev : Event Value} (howes : d.Owes carries h ev)
    (hle : ev.seq ≤ task.args.ev.seq) : d.Handled h ev := by
  have hsound := hdeployed.sound
  obtain ⟨descriptor, ⟨group, hgroup, hentry, hpulled, hmatches⟩, hargs⟩ := hsound.takes_of_getElem? htask
  -- the dispatch is one of `h`, which alone writes its slot
  obtain ⟨name, topic_name, topic_key⟩ := slot
  obtain ⟨hdurable, hname, htopic, _⟩ := DispatchArgs.slot_eq_some_iff.mp hwrites
  obtain ⟨_, hname', htopic', _⟩ := read_slot_eq_some_iff.mp hslot
  obtain ⟨hregistered, hsame⟩ := (hdeployed.mem_handlers_iff hgroup).mp (List.mem_of_getElem? hentry)
  have hown : descriptor = h := by
    rw [hargs] at hdurable hname htopic
    refine hresumable.own_name descriptor hregistered (of_decide_eq_true hdurable) ?_ (hname.trans hname'.symm)
    rw [((HandlerDescriptor.matches_event_iff _ _ _).mp hmatches).1, htopic']
    exact htopic
  subst hown
  obtain ⟨_, hnone⟩ | ⟨_, hlooked⟩ := hdeployed.reachable.looked_up task.group group hgroup
  · rw [hnone] at hpulled
    cases hpulled
  obtain ⟨a, hafter, slot, hslot, seq, hrecorded, hresume⟩ := hdeployed.resumes hresumable hgroup hsame.symm hlooked
  by_cases hpast : a < ev.seq
  · -- the stream has come to the event at or before this dispatch
    have hdue := mem_due howes hpast
    obtain ⟨hpublished, htopic'', hresumed⟩ := hdeployed.lawful _ group hgroup _ _ hpulled
    obtain ⟨hbound, _⟩ := List.getElem?_eq_some_iff.mp hpulled
    obtain ⟨p, horder, hp⟩ : ∃ p ≤ task.occurrence, group.pulled[p]? = some ev := by
      obtain hless | heq := Int.lt_or_eq_of_le hle
      · rw [hsame] at hdue
        obtain ⟨p, hp⟩ := List.mem_iff_getElem?.mp ((hresumed a hafter).2 ev hdue hless)
        rw [List.getElem?_take] at hp
        split at hp
        · rename_i hlt
          exact ⟨p, Nat.le_of_lt hlt, hp⟩
        · cases hp
      · have hsame : ev = task.args.ev := by
          refine hdeployed.numbered.eq_of_seq_eq howes.published hpublished ?_ heq
          obtain ⟨htakes, _⟩ := (HandlerDescriptor.matches_event_iff _ _ _).mp howes.takes
          obtain ⟨htakes', _⟩ := (HandlerDescriptor.matches_event_iff _ _ _).mp hmatches
          exact htakes.symm.trans htakes'
        exact ⟨task.occurrence, Nat.le_refl _, hsame ▸ hpulled⟩
    have htaken : d.running.Takes task.group p task.entry descriptor ev :=
      ⟨group, hgroup, hentry, hp, howes.takes⟩
    refine ⟨_, List.mem_append_right _ (.head _), ?_⟩
    obtain rfl | hbefore := Nat.eq_or_lt_of_le horder
    · have hev : task.args = routed_args descriptor ev := hsound.args_ev_eq htask ⟨rfl, rfl, rfl⟩ htaken
      exact ⟨task, List.mem_of_getElem? htask, hev, Pc.settled_of_returned_ok hreturned⟩
    · obtain ⟨j, earlier, hlt, hearlier, ⟨howner, _, hentry'⟩, hearlier_args⟩ :=
        hsound.served_before htask htaken hbefore
      exact ⟨earlier, List.mem_of_getElem? hearlier, hearlier_args, hdeployed.in_order _ _ i j task earlier htask
        hearlier hlt rfl rfl howner hentry' hdurable (by simp [hname]) hreturned⟩
  · exact hpassed slot hslot seq hrecorded ev howes (by omega)

theorem passed_start (first : Executor Value Actor Valence) (published : List (Event Value))
    (stored : List (Slot × Int)) (h : HandlerDescriptor) :
    (Deployment.start first published stored).Passed carries h := by
  intro slot hslot seq hmem ev howes hle
  obtain hstored | ⟨_, hpast, _⟩ | hrunning := Deployment.mem_checkpoints_iff.mp hmem
  · have hafter := howes.after_stored slot hslot seq hstored
    omega
  · cases hpast
  · cases hrunning

/-- A publish passes nothing: the new event comes after everything recorded. -/
theorem passed_publish (hdeployed : Deployed carries registry stored d) (hpassed : d.Passed carries h)
    {new : Event Value} (horderly : Orderly carries d (.publish new)) :
    ({ d with published := d.published ++ [new] } : Deployment Value Actor Valence).Passed carries h := by
  intro slot hslot seq hmem ev howes hle
  obtain hold | hnew := List.mem_append.mp howes.published
  · have hhandled := hpassed slot hslot seq hmem ev ⟨hold, howes.carried, howes.takes, howes.after_stored⟩ hle
    have hstep : d.step (.publish new) = some { d with published := d.published ++ [new] } := rfl
    exact hhandled.step hstep
  · cases List.mem_singleton.mp hnew
    obtain hstored | ⟨earlier, hearlier, htopic, rfl⟩ := hdeployed.recorded slot seq hmem
    · have hafter := howes.after_stored slot hslot seq hstored
      omega
    · obtain ⟨name, topic_name, topic_key⟩ := slot
      obtain ⟨_, _, htopic', _⟩ := read_slot_eq_some_iff.mp hslot
      obtain ⟨htakes, _⟩ := (HandlerDescriptor.matches_event_iff _ _ _).mp howes.takes
      have hafter := horderly earlier hearlier (htopic.trans (htopic'.symm.trans htakes))
      omega

/-- No step lets a checkpoint of a resumable handler pass an event it is owed
and has not handled. -/
theorem passed_step {action : DeploymentAction Value Actor Valence} (hdeployed : Deployed carries registry stored d)
    (hresumable : Resumable registry stored h) (hpassed : d.Passed carries h) (horderly : Orderly carries d action)
    (hstep : d.step action = some d') : d'.Passed carries h := by
  have hkept : ∀ {slot seq ev}, slot ∈ read_slot h → (slot, seq) ∈ d.checkpoints → d.Owes carries h ev →
      ev.seq ≤ seq → d'.Handled h ev :=
    fun hslot hmem howes hle => (hpassed _ hslot _ hmem _ howes hle).step hstep
  obtain ⟨new, rfl, rfl⟩ | ⟨own, running, rfl, hrun, rfl⟩ | ⟨setup, rfl, rfl⟩ := Deployment.step_cases hstep
  · exact hdeployed.passed_publish hpassed horderly
  · intro slot hslot seq hmem ev howes hle
    have howes' : d.Owes carries h ev := ⟨howes.published, howes.carried, howes.takes, howes.after_stored⟩
    have hold : (slot, seq) ∈ d.checkpoints → _ := fun hbefore => hkept hslot hbefore howes' hle
    rw [Deployment.mem_checkpoints_iff] at hmem
    obtain hstored | hpast | hrunning := hmem
    · exact hold (Deployment.mem_checkpoints_iff.mpr (.inl hstored))
    · exact hold (Deployment.mem_checkpoints_iff.mpr (.inr (.inl hpast)))
    obtain hsame | ⟨i, task, name, htask, hpc, happend⟩ := (Executor.transition_of_step hrun).checkpoints
    · rw [hsame] at hrunning
      exact hold (Deployment.mem_checkpoints_iff.mpr (.inr (.inr hrunning)))
    rw [happend] at hrunning
    obtain hbefore | hnew := List.mem_append.mp hrunning
    · exact hold (Deployment.mem_checkpoints_iff.mpr (.inr (.inr hbefore)))
    · cases List.mem_singleton.mp hnew
      have hledger := hdeployed.sound.ledger i task htask
      rw [hpc] at hledger
      have hreturned : task.pc.returned_ok = true := by rw [hpc]; rfl
      have hhandled : d.Handled h ev :=
        hdeployed.handled_of_returned hresumable hpassed htask hreturned hslot hledger.slot_eq howes' hle
      exact hhandled.step hstep
  · intro slot hslot seq hmem ev howes hle
    exact hkept hslot (Deployment.mem_checkpoints_restart.mp hmem)
      ⟨howes.published, howes.carried, howes.takes, howes.after_stored⟩ hle

end

end Deployed

section

variable {Value Actor Valence : Type} {carries : TopicKey → Event Value → Bool}
  {first : Executor Value Actor Valence} {published : List (Event Value)} {stored : List (Slot × Int)}
  {d : Deployment Value Actor Valence} {h : HandlerDescriptor}

theorem Deployed.of_steps (hpublished : Numbered published)
    (hrun : Steps Deployment.step (Orderly carries) (.start first published stored) d) :
    Deployed carries first.registry stored d :=
  hrun.invariant (fun _ _ _ hdeployed horderly hstep => hdeployed.step horderly hstep)
    (.start first hpublished stored)

theorem Deployed.passed_of_steps (hresumable : Resumable first.registry stored h) (hpublished : Numbered published)
    (hrun : Steps Deployment.step (Orderly carries) (.start first published stored) d) : d.Passed carries h := by
  apply hrun.invariant_along
  · intro before action after hbefore hpassed horderly hstep
    exact (of_steps hpublished hbefore).passed_step hresumable hpassed horderly hstep
  · exact passed_start first published stored h

end

/-- Delivery to a handler over all processes of a deployment. No checkpoint
passes an event the handler is owed and has not handled. Once its group has
caught up with its stream, every event it is owed has been handled in some
process or has its dispatch in the running one. -/
structure AtLeastOnce {Value Actor Valence : Type} (carries : TopicKey → Event Value → Bool)
    (d : Deployment Value Actor Valence) (h : HandlerDescriptor) : Prop where
  passed : d.Passed carries h
  caught_up : ∀ (g : Nat) (group : GroupTask Value), d.running.groups[g]? = some group →
    group.key = h.topicKey → group.CaughtUp carries d.published → ∀ ev, d.Owes carries h ev →
      d.Handled h ev ∨ ∃ task ∈ d.running.tasks, task.group = g ∧ task.args = routed_args h ev

theorem Deployed.at_least_once {Value Actor Valence : Type} {carries : TopicKey → Event Value → Bool}
    {registry : HandlerRegistry} {stored : List (Slot × Int)} {d : Deployment Value Actor Valence}
    (hdeployed : Deployed carries registry stored d) {h : HandlerDescriptor}
    (hresumable : Resumable registry stored h) (hpassed : d.Passed carries h) : AtLeastOnce carries d h := by
  refine ⟨hpassed, fun g group hgroup hkey hcaught ev howes => ?_⟩
  obtain ⟨hpolling, hpulled⟩ := hcaught
  obtain ⟨hidle, _⟩ | ⟨_, hlooked⟩ := hdeployed.reachable.looked_up g group hgroup
  · simp [hpolling] at hidle
  obtain ⟨a, hafter, slot, hslot, seq, hrecorded, hle⟩ := hdeployed.resumes hresumable hgroup hkey hlooked
  by_cases hpast : a < ev.seq
  · have hdue := mem_due howes hpast
    rw [← hkey] at hdue
    obtain ⟨o, ho⟩ := List.mem_iff_getElem?.mp (hpulled a hafter ev hdue)
    have hmember : h ∈ group.handlers :=
      (hdeployed.mem_handlers_iff hgroup).mpr ⟨hresumable.registered, hkey.symm⟩
    obtain ⟨k, hk⟩ := List.mem_iff_getElem?.mp hmember
    have htakes : d.running.Takes g o k h ev := ⟨group, hgroup, hk, ho, howes.takes⟩
    obtain ⟨i, task, htask, ⟨howner, _⟩, hargs⟩ | ⟨other, _, _, hother, hbusy, _⟩ :=
      hdeployed.sound.served_or_pending htakes
    · exact .inr ⟨task, List.mem_of_getElem? htask, howner, hargs⟩
    · cases Option.some.inj (hgroup.symm.trans hother)
      rw [hpolling] at hbusy
      cases hbusy
  · exact .inl (hpassed slot hslot seq hrecorded ev howes (by omega))

/-- However often the process goes down, and wherever it was, an orderly
deployment delivers at least once to every durable handler that can resume. -/
theorem delivers_at_least_once {Value Actor Valence : Type} {carries : TopicKey → Event Value → Bool}
    {first : Executor Value Actor Valence} {published : List (Event Value)} {stored : List (Slot × Int)}
    {d : Deployment Value Actor Valence} {h : HandlerDescriptor} (hresumable : Resumable first.registry stored h)
    (hpublished : Numbered published)
    (hrun : Steps Deployment.step (Orderly carries) (.start first published stored) d) :
    AtLeastOnce carries d h := by
  have hdeployed := Deployed.of_steps hpublished hrun
  have hpassed := Deployed.passed_of_steps hresumable hpublished hrun
  exact hdeployed.at_least_once hresumable hpassed

theorem billing_resumable : Resumable billing_executor.registry [(("billing", "orders", none), 0)]
    (orders_handler (some "billing") none .Durable 0) := by
  have hiter : billing_executor.registry.iter = [orders_handler (some "billing") none .Durable 0] :=
    HandlerRegistry.iter_auto_discover _
  refine ⟨by simp [hiter], rfl, by simp [hiter], ?_⟩
  rw [hiter]
  intro member hmember _ _
  cases List.mem_singleton.mp hmember
  exact ⟨_, rfl, _, .head _, rfl⟩

/-- Streams that carry the events published under their very key: an unfiltered
one only those without a key. -/
def exact_key (key : TopicKey) (ev : Event ActorJson) : Bool := ev.topic_key = key.2

/-- The process goes down right after its first checkpoint call; the next one
resumes at that checkpoint and catches up with its stream, which hands one event
out twice. -/
def restarting : List (DeploymentAction ActorJson Actor Actor) :=
  [.run .spawn_group, .run (.group 0 (.lookup (.ok (some 0)))), .run (.group 0 .subscribe),
    .run (.group 0 (.next (some (.ok (orders_event none 1))))), .run (.group 0 .spawn), .run (.group 0 .spawn),
    .run (.dispatch 0 .acquire), .run (.dispatch 0 .gate), .run (.dispatch 0 .build), .run (.dispatch 0 .invoke),
    .run (.dispatch 0 (.returned .Ok)), .run (.dispatch 0 .coalescer_record), .restart billing_executor,
    .run .spawn_group, .run (.group 0 (.lookup (.ok (some 1)))), .run (.group 0 .subscribe),
    .publish (orders_event none 3), .run (.group 0 (.next (some (.ok (orders_event none 2))))),
    .run (.group 0 .spawn), .run (.group 0 .spawn), .run (.group 0 (.next (some (.ok (orders_event none 3))))),
    .run (.group 0 .spawn), .run (.group 0 .spawn), .run (.group 0 (.next (some (.ok (orders_event none 3))))),
    .run (.group 0 .spawn), .run (.group 0 .spawn)]

def restarted : Deployment ActorJson Actor Actor :=
  (execute Deployment.step
    (.start billing_executor [orders_event none 1, orders_event none 2] [(("billing", "orders", none), 0)])
    restarting).get rfl

theorem restarted_delivers_at_least_once :
    AtLeastOnce exact_key restarted (orders_handler (some "billing") none .Durable 0) ∧
      (∃ group, restarted.running.groups[0]? = some group ∧ group.CaughtUp exact_key restarted.published) ∧
      (restarted.running.tasks.map fun task => task.args.ev.seq) = [2, 3, 3] := by
  have hrun : Steps Deployment.step (Orderly exact_key)
      (.start billing_executor [orders_event none 1, orders_event none 2] [(("billing", "orders", none), 0)])
      restarted := execute_steps restarting (by decide) (Option.some_get _).symm
  obtain ⟨group, hgroup, hpolling, hafter, hdue⟩ : ∃ group, restarted.running.groups[0]? = some group ∧
      group.pc = .polling ∧ group.after_seq = some 1 ∧
      ∀ ev ∈ due exact_key restarted.published group.key 1, ev ∈ group.pulled := ⟨_, rfl, rfl, rfl, by decide⟩
  refine ⟨delivers_at_least_once billing_resumable (by simp [Numbered, orders_event]) hrun,
    ⟨group, hgroup, hpolling, ?_⟩, rfl⟩
  rw [hafter]
  rintro _ ⟨rfl⟩
  exact hdue

end photon_valence_identity.executor
