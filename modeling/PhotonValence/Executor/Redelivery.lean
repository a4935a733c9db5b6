import PhotonValence.Executor.AtLeastOnce

open photon_backend valence register transition slots

namespace photon_valence_identity.executor

/-- Everything recorded before the running process was started. -/
def Deployment.earlier {Value Actor Valence : Type} (self : Deployment Value Actor Valence) : List (Slot × Int) :=
  self.stored ++ self.past.flatMap State.checkpoints

/-- Lookups for durable named handlers succeed and yield the last checkpoint,
and a process is started with the handlers of the one before. -/
def LooksUpLast {Value Actor Valence : Type} (d : Deployment Value Actor Valence) :
    DeploymentAction Value Actor Valence → Prop
  | .run (.group g (.lookup answer)) =>
    ∀ group ∈ d.running.groups[g]?, ∀ h ∈ group.handlers[group.answers.length]?,
      ∀ slot ∈ read_slot h, answer = d.get_checkpoint_seq slot.1 slot.2.1 slot.2.2
  | .run _ | .publish _ => True
  | .restart setup => setup.registry.iter = d.setup.registry.iter

instance {Value Actor Valence : Type} (d : Deployment Value Actor Valence)
    (action : DeploymentAction Value Actor Valence) : Decidable (LooksUpLast d action) :=
  match action with
  | .run (.group g (.lookup answer)) => inferInstanceAs (Decidable
      (∀ group ∈ d.running.groups[g]?, ∀ h ∈ group.handlers[group.answers.length]?,
        ∀ slot ∈ read_slot h, answer = d.get_checkpoint_seq slot.1 slot.2.1 slot.2.2))
  | .run (.group _ .subscribe) | .run (.group _ (.next _)) | .run (.group _ .spawn) => instDecidableTrue
  | .run .spawn_group | .run .abort | .run (.cancel _) | .run (.dispatch _ _) => instDecidableTrue
  | .publish _ => instDecidableTrue
  | .restart setup => inferInstanceAs (Decidable (setup.registry.iter = d.setup.registry.iter))

/-- Streams hand out nothing at or before their resume point. -/
def PullsPast {Value Actor Valence : Type} (d : Deployment Value Actor Valence) :
    DeploymentAction Value Actor Valence → Prop
  | .run (.group g (.next (some (.ok ev)))) =>
    ∀ group ∈ d.running.groups[g]?, ∀ a ∈ group.after_seq, a < ev.seq
  | _ => True

instance {Value Actor Valence : Type} (d : Deployment Value Actor Valence)
    (action : DeploymentAction Value Actor Valence) : Decidable (PullsPast d action) :=
  match action with
  | .run (.group g (.next (some (.ok ev)))) =>
    inferInstanceAs (Decidable (∀ group ∈ d.running.groups[g]?, ∀ a ∈ group.after_seq, a < ev.seq))
  | .run (.group _ (.next none)) | .run (.group _ (.next (some (.error _)))) => instDecidableTrue
  | .run (.group _ (.lookup _)) | .run (.group _ .subscribe) | .run (.group _ .spawn) => instDecidableTrue
  | .run .spawn_group | .run .abort | .run (.cancel _) | .run (.dispatch _ _) => instDecidableTrue
  | .publish _ | .restart _ => instDecidableTrue

/-- The answer is in the store, and nothing recorded earlier lies past it. -/
def Deployment.Current {Value Actor Valence : Type} (d : Deployment Value Actor Valence) (slot : Slot)
    (answer : CheckpointAnswer) : Prop :=
  ∃ found, answer = .ok found ∧ (∀ seq, found = some seq → (slot, seq) ∈ d.checkpoints) ∧
    ∀ seq, (slot, seq) ∈ d.earlier → ∃ last, found = some last ∧ seq ≤ last

/-- What an earlier process has looked up is in a store. -/
structure LookedUp {Value Valence : Type} (inventory : List HandlerDescriptor) (store : List (Slot × Int))
    (s : State Value Valence) : Prop where
  scanned : ∀ group ∈ s.groups, group.scan = ResumeScan.of_calls group.calls
  handlers_eq : ∀ group ∈ s.groups, group.handlers = inventory.filter fun h => h.topicKey = group.key
  answered : ∀ group ∈ s.groups, ∀ (j : Nat) (h : HandlerDescriptor) (answer : CheckpointAnswer),
    group.handlers[j]? = some h → group.answers[j]? = some answer → ∀ slot ∈ read_slot h,
      ∀ seq, answer = .ok (some seq) → (slot, seq) ∈ store

/-- What holds in every state of a deployment whose lookups yield the last
checkpoints. -/
structure Resuming {Value Actor Valence : Type} (inventory : List HandlerDescriptor)
    (d : Deployment Value Actor Valence) : Prop where
  inventory_eq : d.setup.registry.iter = inventory
  reachable : d.setup.Reachable anyStep d.running
  current : d.running.Answered d.Current
  past : ∀ state ∈ d.past, LookedUp inventory d.earlier state

namespace Deployment

theorem mem_earlier_iff {Value Actor Valence : Type} {d : Deployment Value Actor Valence} {entry : Slot × Int} :
    entry ∈ d.earlier ↔ entry ∈ d.stored ∨ ∃ state ∈ d.past, entry ∈ state.checkpoints := by
  simp [earlier, List.mem_flatMap]

theorem mem_checkpoints_of_earlier {Value Actor Valence : Type} {d : Deployment Value Actor Valence}
    {entry : Slot × Int} (hearlier : entry ∈ d.earlier) : entry ∈ d.checkpoints := by
  rw [mem_checkpoints_iff]
  obtain hstored | hpast := mem_earlier_iff.mp hearlier
  · exact .inl hstored
  · exact .inr (.inl hpast)

/-- The last checkpoint of the whole store is current. -/
theorem current_of_last {Value Actor Valence : Type} (d : Deployment Value Actor Valence) (slot : Slot) :
    d.Current slot (d.get_checkpoint_seq slot.1 slot.2.1 slot.2.2) := by
  refine ⟨greatest d.checkpoints slot, rfl, ?_, ?_⟩
  · intro seq hseq
    exact (greatest_eq_some_iff.mp hseq).1
  · intro seq hearlier
    exact exists_greatest_of_mem (mem_checkpoints_of_earlier hearlier)

end Deployment

namespace Resuming

section

variable {Value Actor Valence : Type} {inventory : List HandlerDescriptor} {d d' : Deployment Value Actor Valence}

/-- What the running process has looked up is in the store. -/
theorem looked_up (hresuming : Resuming inventory d) : LookedUp inventory d.checkpoints d.running where
  scanned := by
    intro group hmem
    obtain ⟨g, hgroup⟩ := List.mem_iff_getElem?.mp hmem
    exact hresuming.reachable.scanned g group hgroup
  handlers_eq := by
    intro group hmem
    rw [hresuming.reachable.sound.handlers_eq group hmem, HandlerRegistry.handlers_for_topic_key_eq,
      hresuming.inventory_eq]
    rfl
  answered := by
    rintro group hmem j h answer hj hanswer slot hslot seq rfl
    obtain ⟨g, hgroup⟩ := List.mem_iff_getElem?.mp hmem
    obtain ⟨found, hfound, hstored, _⟩ := hresuming.current g group hgroup j h _ hj hanswer slot hslot
    exact hstored seq (Except.ok.inj hfound).symm

theorem start (first : Executor Value Actor Valence) (published : List (Event Value))
    (stored : List (Slot × Int)) : Resuming first.registry.iter (.start first published stored) where
  inventory_eq := rfl
  reachable := .refl _
  current := State.answered_start _ _
  past := by simp [Deployment.start]

/-- The running process goes on. -/
theorem run {own : Action Value} {running : State Value Valence} (hresuming : Resuming inventory d)
    (hlast : LooksUpLast d (.run own)) (hrun : d.setup.step d.running own = some running) :
    Resuming inventory { d with running } := by
  have hgrows := Deployment.checkpoints_subset (Deployment.step_run hrun)
  have hcurrent : ∀ slot answer, d.Current slot answer →
      ({ d with running } : Deployment Value Actor Valence).Current slot answer := by
    rintro slot answer ⟨found, hfound, hstored, hpast⟩
    exact ⟨found, hfound, fun seq hseq => hgrows (hstored seq hseq), hpast⟩
  refine ⟨hresuming.inventory_eq, .tail hresuming.reachable trivial hrun, ?_, hresuming.past⟩
  refine State.Answered.step (hresuming.current.imp hcurrent) hrun ?_
  rintro g answer rfl group hgroup h hh slot hslot
  rw [hlast group hgroup h hh slot hslot]
  exact hcurrent slot _ (d.current_of_last slot)

/-- The next process starts. -/
theorem restart {setup : Executor Value Actor Valence} (hresuming : Resuming inventory d)
    (hlast : LooksUpLast d (.restart setup)) :
    Resuming inventory { d with
      setup
      running := setup.start
      past := d.past ++ [d.running] } := by
  refine ⟨hlast.trans hresuming.inventory_eq, .refl _, State.answered_start _ _, ?_⟩
  have hearlier : ∀ entry, entry ∈ d.checkpoints → entry ∈ ({ d with
      setup
      running := setup.start
      past := d.past ++ [d.running] } : Deployment Value Actor Valence).earlier := by
    intro entry hentry
    rw [Deployment.mem_checkpoints_iff] at hentry
    rw [Deployment.mem_earlier_iff]
    obtain hstored | ⟨state, hstate, hmem⟩ | hrunning := hentry
    · exact .inl hstored
    · exact .inr ⟨state, List.mem_append_left _ hstate, hmem⟩
    · exact .inr ⟨_, List.mem_append_right _ (.head _), hrunning⟩
  intro state hstate
  have hlooked : LookedUp inventory d.checkpoints state := by
    obtain hpast | hlast := List.mem_append.mp hstate
    · obtain ⟨hscanned, hhandlers, hanswered⟩ := hresuming.past state hpast
      exact ⟨hscanned, hhandlers, fun group hgroup j h answer hj hanswer slot hslot seq hseq =>
        Deployment.mem_checkpoints_of_earlier (hanswered group hgroup j h answer hj hanswer slot hslot seq hseq)⟩
    · rw [List.mem_singleton.mp hlast]
      exact hresuming.looked_up
  exact ⟨hlooked.scanned, hlooked.handlers_eq, fun group hgroup j h answer hj hanswer slot hslot seq hseq =>
    hearlier _ (hlooked.answered group hgroup j h answer hj hanswer slot hslot seq hseq)⟩

theorem step {action : DeploymentAction Value Actor Valence} (hresuming : Resuming inventory d)
    (hlast : LooksUpLast d action) (hstep : d.step action = some d') : Resuming inventory d' := by
  obtain ⟨ev, rfl, rfl⟩ | ⟨own, running, rfl, hrun, rfl⟩ | ⟨setup, rfl, rfl⟩ := Deployment.step_cases hstep
  · exact ⟨hresuming.inventory_eq, hresuming.reachable, hresuming.current, hresuming.past⟩
  · exact hresuming.run hlast hrun
  · exact hresuming.restart hlast

theorem of_steps {first : Executor Value Actor Valence} {published : List (Event Value)}
    {stored : List (Slot × Int)} {ok : Deployment Value Actor Valence → DeploymentAction Value Actor Valence → Prop}
    (hlast : ∀ d action, ok d action → LooksUpLast d action)
    (hrun : Steps Deployment.step ok (.start first published stored) d) : Resuming first.registry.iter d :=
  hrun.invariant (fun _ _ _ hresuming hok hstep => hresuming.step (hlast _ _ hok) hstep)
    (.start first published stored)

end

end Resuming

/-- A scan with a durable handler starts from now only if one of its durable
handlers has no checkpoint. -/
theorem missing_of_result_eq_none {calls : List (HandlerDescriptor × (String → CheckpointAnswer))}
    {call : HandlerDescriptor × (String → CheckpointAnswer)} (hcall : call ∈ calls) (hmode : call.1.mode = .Durable)
    (hresult : (ResumeScan.of_calls calls).result = none) :
    ∃ missing ∈ calls, missing.1.mode = .Durable ∧ checkpoint missing.1 missing.2 = none := by
  rw [ResumeScan.result_of_calls, leastPresent_eq_none_iff] at hresult
  have hmem : checkpoint call.1 call.2 ∈ durable_checkpoints calls :=
    mem_durable_checkpoints_iff.mpr ⟨call, hcall, hmode, rfl⟩
  obtain hempty | hnone := hresult
  · rw [hempty] at hmem
    cases hmem
  · exact mem_durable_checkpoints_iff.mp hnone

/-- The checkpoint of a named handler is what its lookup found. -/
theorem checkpoint_eq_found {h : HandlerDescriptor} {slot : Slot} (hslot : slot ∈ read_slot h)
    (found : Option Int) : checkpoint h (fun _ => .ok found) = found := by
  obtain ⟨name, topic_name, topic_key⟩ := slot
  obtain ⟨_, hname, _⟩ := read_slot_eq_some_iff.mp hslot
  simp [checkpoint, hname]

/-- What a process has pulled lies past the resume points of its groups. -/
theorem pulled_past {Value Actor Valence : Type} {first : Executor Value Actor Valence}
    {published : List (Event Value)} {stored : List (Slot × Int)} {d : Deployment Value Actor Valence}
    {ok : Deployment Value Actor Valence → DeploymentAction Value Actor Valence → Prop}
    (hpast : ∀ d action, ok d action → PullsPast d action)
    (hrun : Steps Deployment.step ok (.start first published stored) d) (g : Nat) (group : GroupTask Value)
    (hgroup : d.running.groups[g]? = some group) (o : Nat) (ev : Event Value) (hev : group.pulled[o]? = some ev) :
    ∀ a ∈ group.after_seq, a < ev.seq := by
  have hall : ∀ (g : Nat) (group : GroupTask Value), d.running.groups[g]? = some group →
      ∀ (o : Nat) (ev : Event Value), group.pulled[o]? = some ev → ∀ a ∈ group.after_seq, a < ev.seq := by
    apply hrun.invariant_along
    · intro before action after hbefore hpulled hok hstep
      obtain ⟨ev, rfl, rfl⟩ | ⟨own, running, rfl, hown, rfl⟩ | ⟨setup, rfl, rfl⟩ := Deployment.step_cases hstep
      · exact hpulled
      · have hreachable : before.setup.Reachable anyStep before.running := Deployment.reachable_of_steps hbefore
        refine (Executor.transition_of_step hown).lawful (fun _ after_seq _ ev => ∀ a ∈ after_seq, a < ev.seq)
          hreachable.resuming_pulled ?_ hpulled
        rintro g ev rfl group hgroup
        exact hpast _ _ hok group hgroup
      · simp [Executor.start]
    · simp [Deployment.start, Executor.start]
  exact hall g group hgroup o ev hev

/-- Whatever a process dispatches for a group lies past all that the processes
before it have recorded under the slot that one of the group's durable handlers
looks up. -/
theorem redelivers_past_a_checkpoint {Value Actor Valence : Type} {first : Executor Value Actor Valence}
    {published : List (Event Value)} {stored : List (Slot × Int)} {d : Deployment Value Actor Valence}
    (hrun : Steps Deployment.step (fun d action => LooksUpLast d action ∧ PullsPast d action)
      (.start first published stored) d) {g : Nat} {group : GroupTask Value}
    (hgroup : d.running.groups[g]? = some group) (hdurable : ∃ h ∈ group.handlers, h.mode = .Durable) :
    ∃ h ∈ group.handlers, h.mode = .Durable ∧ ∀ slot ∈ read_slot h, ∀ seq, (slot, seq) ∈ d.earlier →
      ∀ task ∈ d.running.tasks, task.group = g → seq < task.args.ev.seq := by
  have hresuming := Resuming.of_steps (fun _ _ hok => hok.1) hrun
  have hsound := hresuming.reachable.sound
  obtain ⟨member, hmember, hmode⟩ := hdurable
  have hpulled : ∀ task ∈ d.running.tasks, task.group = g → group.pulled[task.occurrence]? = some task.args.ev := by
    intro task htask howner
    obtain ⟨_, ⟨own, hown, _, hpulled, _⟩, _⟩ := hsound.takes_of_task htask
    rw [howner] at hown
    cases Option.some.inj (hgroup.symm.trans hown)
    exact hpulled
  obtain ⟨_, hnone⟩ | ⟨_, hlooked⟩ := hresuming.reachable.looked_up g group hgroup
  · refine ⟨member, hmember, hmode, fun slot _ seq _ task htask howner => ?_⟩
    have htaken := hpulled task htask howner
    rw [hnone] at htaken
    cases htaken
  have hscan := hresuming.looked_up.scanned group (List.mem_of_getElem? hgroup)
  obtain ⟨_, _, _, _, hcall⟩ := GroupTask.call_of_mem hlooked hmember
  cases hafter : group.after_seq with
  | some a =>
    have hresult := hafter
    rw [GroupTask.after_seq, hscan] at hresult
    obtain ⟨_, call, hleast, hdurable, hcheckpoint⟩ := checkpointed_of_result hresult
    obtain ⟨j, h, answer, hj, hanswer, rfl⟩ := GroupTask.mem_calls_iff.mp hleast
    refine ⟨h, List.mem_of_getElem? hj, hdurable, fun slot hslot seq hearlier task htask howner => ?_⟩
    obtain ⟨found, rfl, _, hpast⟩ := hresuming.current g group hgroup j h answer hj hanswer slot hslot
    obtain ⟨last, rfl, hle⟩ := hpast seq hearlier
    have hlast : last = a := Option.some.inj ((checkpoint_eq_found hslot _).symm.trans hcheckpoint)
    have hlater := pulled_past (fun _ _ hok => hok.2) hrun g group hgroup _ _ (hpulled task htask howner) a hafter
    omega
  | none =>
    have hresult := hafter
    rw [GroupTask.after_seq, hscan] at hresult
    obtain ⟨call, hmissing, hdurable, hcheckpoint⟩ := missing_of_result_eq_none hcall hmode hresult
    obtain ⟨j, h, answer, hj, hanswer, rfl⟩ := GroupTask.mem_calls_iff.mp hmissing
    refine ⟨h, List.mem_of_getElem? hj, hdurable, fun slot hslot seq hearlier _ _ _ => ?_⟩
    obtain ⟨found, rfl, _, hpast⟩ := hresuming.current g group hgroup j h answer hj hanswer slot hslot
    obtain ⟨last, rfl, _⟩ := hpast seq hearlier
    cases (checkpoint_eq_found hslot _).symm.trans hcheckpoint

theorem redelivers_past_a_checkpoint_restarted :
    ∃ h ∈ [orders_handler (some "billing") none .Durable 0], h.mode = .Durable ∧ ∀ slot ∈ read_slot h,
      ∀ seq, (slot, seq) ∈ restarted.earlier → ∀ task ∈ restarted.running.tasks, task.group = 0 →
        seq < task.args.ev.seq := by
  have hrun : Steps Deployment.step (fun d action => LooksUpLast d action ∧ PullsPast d action)
      (.start billing_executor [orders_event none 1, orders_event none 2] [(("billing", "orders", none), 0)])
      restarted := execute_steps restarting (by decide) (Option.some_get _).symm
  obtain ⟨group, hgroup, hhandlers⟩ : ∃ group, restarted.running.groups[0]? = some group ∧
      group.handlers = [orders_handler (some "billing") none .Durable 0] := ⟨_, rfl, rfl⟩
  have hmember : orders_handler (some "billing") none .Durable 0 ∈ group.handlers := by
    rw [hhandlers]
    exact .head _
  rw [← hhandlers]
  exact redelivers_past_a_checkpoint hrun hgroup ⟨_, hmember, rfl⟩

/-- A stream resumes at or past `a` when all durable handlers have their
checkpoints there. -/
theorem le_result_of_checkpoints {calls : List (HandlerDescriptor × (String → CheckpointAnswer))} {a : Int}
    (hall : ∀ call ∈ calls, call.1.mode = .Durable → ∃ c, checkpoint call.1 call.2 = some c ∧ a ≤ c)
    (hdurable : ∃ call ∈ calls, call.1.mode = .Durable) :
    ∃ a', (ResumeScan.of_calls calls).result = some a' ∧ a ≤ a' := by
  obtain ⟨member, hmember, hmode⟩ := hdurable
  cases hresult : (ResumeScan.of_calls calls).result with
  | none =>
    obtain ⟨call, hcall, hmode', hmissing⟩ := missing_of_result_eq_none hmember hmode hresult
    obtain ⟨c, hc, _⟩ := hall call hcall hmode'
    cases hmissing.symm.trans hc
  | some a' =>
    obtain ⟨_, call, hcall, hmode', hcheckpoint⟩ := checkpointed_of_result hresult
    obtain ⟨c, hc, hle⟩ := hall call hcall hmode'
    cases hcheckpoint.symm.trans hc
    exact ⟨a', rfl, hle⟩

/-- A durable handler that had a checkpoint when its group resumed at `a` has
one at or past `a` in the running process. -/
theorem Resuming.answered_past {Value Actor Valence : Type} {inventory : List HandlerDescriptor}
    {d : Deployment Value Actor Valence} (hresuming : Resuming inventory d) {state : State Value Valence}
    (hstate : state ∈ d.past) {earlier group : GroupTask Value} (hearlier : earlier ∈ state.groups)
    (hlooked : earlier.handlers.length ≤ earlier.answers.length) {a : Int} (hafter : earlier.after_seq = some a)
    {g : Nat} (hgroup : d.running.groups[g]? = some group) (hhandlers : group.handlers = earlier.handlers)
    {j : Nat} {h : HandlerDescriptor} {answer : CheckpointAnswer} (hj : group.handlers[j]? = some h)
    (hanswer : group.answers[j]? = some answer) (hmode : h.mode = .Durable) :
    ∃ last, checkpoint h (fun _ => answer) = some last ∧ a ≤ last := by
  have hpast := hresuming.past state hstate
  have hj' := hj
  rw [hhandlers] at hj'
  have hbound := (List.getElem?_eq_some_iff.mp hj').1
  have hthen : earlier.answers[j]? = some earlier.answers[j] := List.getElem?_eq_getElem (by omega)
  have hcall : (h, fun _ => earlier.answers[j]) ∈ earlier.calls :=
    GroupTask.mem_calls_iff.mpr ⟨j, h, _, hj', hthen, rfl⟩
  rw [GroupTask.after_seq, hpast.scanned earlier hearlier] at hafter
  obtain ⟨hall, _⟩ := checkpointed_of_result hafter
  obtain ⟨name, seq, hname, hseq⟩ := hall _ hcall hmode
  obtain ⟨least, hleast, hle⟩ := result_le_checkpoint hall hcall hmode
    (checkpoint_eq_some_iff.mpr ⟨name, hname, hseq⟩)
  cases Option.some.inj (hleast.symm.trans hafter)
  have hslot : (name, h.topic_name, h.topic_key_filter) ∈ read_slot h :=
    read_slot_eq_some_iff.mpr ⟨hmode, hname, rfl, rfl⟩
  have hrecorded := hpast.answered earlier hearlier j h _ hj' hthen _ hslot seq hseq
  obtain ⟨found, rfl, _, hcurrent⟩ := hresuming.current g group hgroup j h answer hj hanswer _ hslot
  obtain ⟨last, rfl, hle'⟩ := hcurrent seq hrecorded
  exact ⟨last, checkpoint_eq_found hslot _, by omega⟩

/-- A group that has resumed in one process resumes in every later one, and not
before where it did then. -/
theorem resume_points_never_go_back {Value Actor Valence : Type} {first : Executor Value Actor Valence}
    {published : List (Event Value)} {stored : List (Slot × Int)} {d : Deployment Value Actor Valence}
    (hrun : Steps Deployment.step LooksUpLast (.start first published stored) d) {state : State Value Valence}
    (hstate : state ∈ d.past) {earlier group : GroupTask Value} (hearlier : earlier ∈ state.groups)
    (hlooked : earlier.handlers.length ≤ earlier.answers.length) {a : Int} (hafter : earlier.after_seq = some a)
    {g : Nat} (hgroup : d.running.groups[g]? = some group) (hkey : group.key = earlier.key)
    (hlooked' : group.handlers.length ≤ group.answers.length) :
    ∃ a', group.after_seq = some a' ∧ a ≤ a' := by
  have hresuming := Resuming.of_steps (fun _ _ hok => hok) hrun
  have hpast := hresuming.past state hstate
  have hnow := hresuming.looked_up
  have hhandlers : group.handlers = earlier.handlers := by
    rw [hnow.handlers_eq group (List.mem_of_getElem? hgroup), hpast.handlers_eq earlier hearlier, hkey]
  rw [GroupTask.after_seq, hnow.scanned group (List.mem_of_getElem? hgroup)]
  apply le_result_of_checkpoints
  · intro call hcall hmode
    obtain ⟨j, h, answer, hj, hanswer, rfl⟩ := GroupTask.mem_calls_iff.mp hcall
    exact hresuming.answered_past hstate hearlier hlooked hafter hgroup hhandlers hj hanswer hmode
  · rw [GroupTask.after_seq, hpast.scanned earlier hearlier] at hafter
    obtain ⟨_, least, hleast, hdurable, _⟩ := checkpointed_of_result hafter
    obtain ⟨j, h, _, hj, _, rfl⟩ := GroupTask.mem_calls_iff.mp hleast
    rw [← hhandlers] at hj
    obtain ⟨_, _, _, _, hcall⟩ := GroupTask.call_of_mem hlooked' (List.mem_of_getElem? hj)
    exact ⟨_, hcall, hdurable⟩

theorem resume_points_never_go_back_restarted :
    ∃ state earlier group, restarted.past[0]? = some state ∧ state.groups[0]? = some earlier ∧
      restarted.running.groups[0]? = some group ∧ earlier.after_seq = some 0 ∧
      ∃ a', group.after_seq = some a' ∧ 0 ≤ a' := by
  have hrun : Steps Deployment.step LooksUpLast (.start billing_executor [orders_event none 1, orders_event none 2]
      [(("billing", "orders", none), 0)]) restarted :=
    execute_steps restarting (by decide) (Option.some_get _).symm
  obtain ⟨state, earlier, group, hstate, hearlier, hgroup, hafter, hlooked, hkey, hlooked'⟩ :
      ∃ state earlier group, restarted.past[0]? = some state ∧ state.groups[0]? = some earlier ∧
        restarted.running.groups[0]? = some group ∧ earlier.after_seq = some 0 ∧
        earlier.handlers.length ≤ earlier.answers.length ∧ group.key = earlier.key ∧
        group.handlers.length ≤ group.answers.length :=
    ⟨_, _, _, rfl, rfl, rfl, rfl, by decide, rfl, by decide⟩
  exact ⟨state, earlier, group, hstate, hearlier, hgroup, hafter,
    resume_points_never_go_back hrun (List.mem_of_getElem? hstate) (List.mem_of_getElem? hearlier) hlooked hafter
      hgroup hkey hlooked'⟩

end photon_valence_identity.executor
