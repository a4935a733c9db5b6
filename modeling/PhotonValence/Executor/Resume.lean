import PhotonValence.Executor.Inventory
import PhotonValence.Executor.Pairs

open photon_backend valence register transition slots

namespace photon_valence_identity.executor

/-- Every durable handler of a scan has a name and a checkpoint. -/
def AllCheckpointed (calls : List (HandlerDescriptor × (String → CheckpointAnswer))) : Prop :=
  ∀ call ∈ calls, call.1.mode = .Durable → ∃ name c, call.1.subscription_name = some name ∧
    call.2 name = .ok (some c)

theorem mem_durable_checkpoints_iff {calls : List (HandlerDescriptor × (String → CheckpointAnswer))}
    {answer : Option Int} :
    answer ∈ durable_checkpoints calls ↔
      ∃ call ∈ calls, call.1.mode = .Durable ∧ checkpoint call.1 call.2 = answer := by
  simp only [durable_checkpoints, List.mem_map, List.mem_filter, decide_eq_true_eq, and_assoc]

theorem allCheckpointed_iff {calls : List (HandlerDescriptor × (String → CheckpointAnswer))} :
    AllCheckpointed calls ↔ none ∉ durable_checkpoints calls := by
  rw [mem_durable_checkpoints_iff]
  constructor
  · rintro hall ⟨call, hcall, hmode, hnone⟩
    obtain ⟨name, c, hname, hanswer⟩ := hall call hcall hmode
    have hsome := checkpoint_eq_some_iff.mpr ⟨name, hname, hanswer⟩
    rw [hnone] at hsome
    cases hsome
  · intro hnone call hcall hmode
    cases hcheckpoint : checkpoint call.1 call.2 with
    | none => exact absurd ⟨call, hcall, hmode, hcheckpoint⟩ hnone
    | some c =>
      obtain ⟨name, hname, hanswer⟩ := checkpoint_eq_some_iff.mp hcheckpoint
      exact ⟨name, c, hname, hanswer⟩

/-- Where all durable handlers have a checkpoint the stream resumes at or
before each of them. -/
theorem result_le_checkpoint {calls : List (HandlerDescriptor × (String → CheckpointAnswer))}
    (hall : AllCheckpointed calls) {call : HandlerDescriptor × (String → CheckpointAnswer)}
    (hcall : call ∈ calls) (hmode : call.1.mode = .Durable) {s : Int}
    (hcheckpoint : checkpoint call.1 call.2 = some s) :
    ∃ a, (ResumeScan.of_calls calls).result = some a ∧ a ≤ s := by
  have hmem : some s ∈ durable_checkpoints calls :=
    mem_durable_checkpoints_iff.mpr ⟨call, hcall, hmode, hcheckpoint⟩
  rw [ResumeScan.result_of_calls]
  cases hleast : leastPresent (durable_checkpoints calls) with
  | none =>
    obtain hempty | hnone := leastPresent_eq_none_iff.mp hleast
    · rw [hempty] at hmem
      cases hmem
    · exact absurd hnone (allCheckpointed_iff.mp hall)
  | some a =>
    obtain ⟨value, hvalue, hle⟩ := (leastPresent_eq_some_iff.mp hleast).1 _ hmem
    cases hvalue
    exact ⟨a, rfl, hle⟩

/-- A resume point is the checkpoint of one of the durable handlers, all of
which have one. -/
theorem checkpointed_of_result {calls : List (HandlerDescriptor × (String → CheckpointAnswer))} {a : Int}
    (hresult : (ResumeScan.of_calls calls).result = some a) :
    AllCheckpointed calls ∧
      ∃ call ∈ calls, call.1.mode = .Durable ∧ checkpoint call.1 call.2 = some a := by
  rw [ResumeScan.result_of_calls] at hresult
  obtain ⟨hall, hmem⟩ := leastPresent_eq_some_iff.mp hresult
  refine ⟨allCheckpointed_iff.mpr fun hnone => ?_, mem_durable_checkpoints_iff.mp hmem⟩
  obtain ⟨value, hvalue, _⟩ := hall none hnone
  cases hvalue

/-- A durable handler without a checkpoint makes the stream start from now. -/
theorem result_eq_none {calls : List (HandlerDescriptor × (String → CheckpointAnswer))}
    (hmissing : ¬ AllCheckpointed calls) : (ResumeScan.of_calls calls).result = none := by
  rw [allCheckpointed_iff, not_not] at hmissing
  rw [ResumeScan.result_of_calls]
  exact leastPresent_eq_none_iff.mpr (.inr hmissing)

/-- A step of the executor changes its scans only by lookups. -/
theorem Executor.Transition.scanned {Value Actor Valence : Type} {self : Executor Value Actor Valence}
    {s s' : State Value Valence} {action : Action Value} (htransition : self.Transition s action s')
    (hscanned : ∀ (g : Nat) (group : GroupTask Value), s.groups[g]? = some group →
      group.scan = ResumeScan.of_calls group.calls) {g : Nat} {group' : GroupTask Value}
    (hgroup' : s'.groups[g]? = some group') : group'.scan = ResumeScan.of_calls group'.calls := by
  cases htransition.group_change hgroup' with
  | stays hgroup => exact hscanned g group' hgroup
  | fresh _ _ hscan => exact hscan
  | moves hgroup _ hmoves => exact hmoves.scan_eq (hscanned g _ hgroup)
  | @cancelled group hgroup _ => exact hscanned g group hgroup

/-- A subscription task that has not subscribed has pulled nothing. -/
theorem Executor.Reachable.resuming_pulled {Value Actor Valence : Type} {self : Executor Value Actor Valence}
    {ok : State Value Valence → Action Value → Prop} {s : State Value Valence}
    (hreachable : self.Reachable ok s) :
    ∀ (g : Nat) (group : GroupTask Value), s.groups[g]? = some group → group.pc = .resuming →
      group.pulled = [] := by
  apply Steps.invariant hreachable
  · intro before action after hbefore _ hstep g group' hgroup' hpc'
    cases (transition_of_step hstep).group_change hgroup' with
    | stays hgroup => exact hbefore g group' hgroup hpc'
    | fresh _ hpulled => exact hpulled
    | cancelled => cases hpc'
    | @moves group _ _ _ hgroup _ hmoves =>
      cases hmoves with
      | lookup _ hpc => exact hbefore g group hgroup hpc
      | stream_error hpc =>
        rw [hpc] at hpc'
        cases hpc'
      | _ => cases hpc'
  · intro g group hgroup
    simp [Executor.start] at hgroup

/-- The accumulators of every subscription task are those of its lookups. -/
theorem Executor.Reachable.scanned {Value Actor Valence : Type} {self : Executor Value Actor Valence}
    {ok : State Value Valence → Action Value → Prop} {s : State Value Valence}
    (hreachable : self.Reachable ok s) :
    ∀ (g : Nat) (group : GroupTask Value), s.groups[g]? = some group →
      group.scan = ResumeScan.of_calls group.calls := by
  apply Steps.invariant hreachable
  · intro before action after hbefore _ hstep g group hgroup
    exact (transition_of_step hstep).scanned hbefore hgroup
  · intro g group hgroup
    simp [Executor.start] at hgroup

/-- Only a lookup adds to the answers of a subscription task. -/
theorem GroupMoves.answers_eq {Value : Type} {group group' : GroupTask Value} {turn : GroupTurn Value}
    {spawned : Option (Nat × DispatchArgs Value)} (hmoves : GroupMoves group turn group' spawned)
    (hpc : group.pc ≠ .resuming) : group'.answers = group.answers := by
  cases hmoves with
  | lookup _ hresuming => exact absurd hresuming hpc
  | _ => rfl

/-- A subscription task has pulled nothing and is looking up checkpoints, or was
cancelled there, or has the answers of all its lookups. -/
theorem Executor.Reachable.looked_up {Value Actor Valence : Type} {self : Executor Value Actor Valence}
    {ok : State Value Valence → Action Value → Prop} {s : State Value Valence}
    (hreachable : self.Reachable ok s) :
    ∀ (g : Nat) (group : GroupTask Value), s.groups[g]? = some group →
      (group.pc = .resuming ∨ group.pc = .cancelled) ∧ group.pulled = [] ∨
        group.pc ≠ .resuming ∧ group.handlers.length ≤ group.answers.length := by
  apply Steps.invariant hreachable
  · intro before action after hbefore _ hstep g group' hgroup'
    cases (transition_of_step hstep).group_change hgroup' with
    | stays hgroup => exact hbefore g group' hgroup
    | fresh hpc hpulled => exact .inl ⟨.inl hpc, hpulled⟩
    | @cancelled group hgroup =>
      obtain ⟨hpc, hpulled⟩ | ⟨_, hlooked⟩ := hbefore g group hgroup
      · refine .inl ⟨.inr rfl, ?_⟩
        obtain hpc | hpc := hpc <;> simpa [GroupTask.pulled, GroupTask.current, hpc] using hpulled
      · exact .inr ⟨by simp, hlooked⟩
    | @moves group _ _ _ hgroup _ hmoves =>
      obtain ⟨hidle, hpulled⟩ | ⟨hpc, hlooked⟩ := hbefore g group hgroup
      · cases hmoves with
        | lookup _ hpc => exact .inl ⟨.inl hpc, hpulled⟩
        | subscribe _ hdone => exact .inr ⟨by simp, List.getElem?_eq_none_iff.mp hdone⟩
        | finish hpc | stream_error hpc | pull _ hpc | round_over hpc | pass_over hpc | spawn hpc =>
          simp [hpc] at hidle
      · refine .inr ⟨?_, ?_⟩
        · cases hmoves with
          | lookup _ hresuming => exact absurd hresuming hpc
          | stream_error => exact hpc
          | _ => simp
        · rw [hmoves.same_group.2.2, hmoves.answers_eq hpc]
          exact hlooked
  · intro g group hgroup
    simp [Executor.start] at hgroup

/-- A lookup of a subscription task is that of a handler and its answer. -/
theorem GroupTask.mem_calls_iff {Value : Type} {group : GroupTask Value}
    {call : HandlerDescriptor × (String → CheckpointAnswer)} :
    call ∈ group.calls ↔ ∃ (j : Nat) (h : HandlerDescriptor) (answer : CheckpointAnswer),
      group.handlers[j]? = some h ∧ group.answers[j]? = some answer ∧ call = (h, fun _ => answer) := by
  constructor
  · intro hcall
    obtain ⟨⟨h, answer⟩, hpair, rfl⟩ := List.mem_map.mp hcall
    obtain ⟨j, hj⟩ := List.mem_iff_getElem?.mp hpair
    obtain ⟨hh, hanswer⟩ := List.getElem?_zip_eq_some.mp hj
    exact ⟨j, h, answer, hh, hanswer, rfl⟩
  · rintro ⟨j, h, answer, hh, hanswer, rfl⟩
    have hpair : (group.handlers.zip group.answers)[j]? = some (h, answer) :=
      List.getElem?_zip_eq_some.mpr ⟨hh, hanswer⟩
    exact List.mem_map.mpr ⟨_, List.mem_of_getElem? hpair, rfl⟩

/-- When the lookups are over, every handler has had its own. -/
theorem GroupTask.call_of_mem {Value : Type} {group : GroupTask Value}
    (hlooked : group.handlers.length ≤ group.answers.length) {h : HandlerDescriptor} (hh : h ∈ group.handlers) :
    ∃ (j : Nat) (answer : CheckpointAnswer), group.handlers[j]? = some h ∧ group.answers[j]? = some answer ∧
      (h, fun _ => answer) ∈ group.calls := by
  obtain ⟨j, hj⟩ := List.mem_iff_getElem?.mp hh
  have hbound := (List.getElem?_eq_some_iff.mp hj).1
  have hanswer : group.answers[j]? = some group.answers[j] := List.getElem?_eq_getElem (by omega)
  exact ⟨j, _, hj, hanswer, GroupTask.mem_calls_iff.mpr ⟨j, h, _, hj, hanswer, rfl⟩⟩

/-- Whatever the lookups of a group answer, a durable named handler whose
checkpoint is `s` is delivered every retained event past it if all durable
handlers of the group have a name and a checkpoint. If one of them has not,
its own lookup failing included, the stream starts from now and no retained
event is delivered at all. -/
theorem resume_past_checkpoint_or_now {Value : Type}
    {calls : List (HandlerDescriptor × (String → CheckpointAnswer))} {h : HandlerDescriptor}
    {get_checkpoint_seq : String → CheckpointAnswer} {name : String} {s : Int}
    (hcall : (h, get_checkpoint_seq) ∈ calls) (hmode : h.mode = .Durable)
    (hname : h.subscription_name = some name)
    (hstored : get_checkpoint_seq name = .ok (some s) ∨ ∃ e, get_checkpoint_seq name = .error e) :
    (AllCheckpointed calls → ∀ ev : Event Value, s < ev.seq →
      delivers_retained (ResumeScan.of_calls calls).result ev) ∧
    (¬ AllCheckpointed calls → ∀ ev : Event Value, ¬ delivers_retained (ResumeScan.of_calls calls).result ev) := by
  constructor
  · intro hall ev hpast
    have hanswer : get_checkpoint_seq name = .ok (some s) := by
      obtain hanswer | ⟨e, herror⟩ := hstored
      · exact hanswer
      · obtain ⟨name', c, hname', hc⟩ := hall _ hcall hmode
        cases Option.some.inj (hname.symm.trans hname')
        exact absurd (herror.symm.trans hc) (by simp)
    obtain ⟨a, ha, hle⟩ := result_le_checkpoint hall hcall hmode
      (checkpoint_eq_some_iff.mpr ⟨name, hname, hanswer⟩)
    exact ⟨a, ha, by omega⟩
  · intro hmissing ev
    rw [result_eq_none hmissing]
    exact not_delivers_retained_none ev

/-- Two durable handlers with checkpoints 5 and 3: the events past 5 reach the
first. -/
theorem resume_past_checkpoint_five :
    delivers_retained (ResumeScan.of_calls [(orders_handler (some "billing") none .Durable 0, fun _ => .ok (some 5)),
      (orders_handler (some "audit") none .Durable 1, fun _ => .ok (some 3))]).result
        (orders_event none 7) := by
  refine (resume_past_checkpoint_or_now (.head _) rfl rfl (.inl rfl)).1 ?_ _ (by decide)
  intro call hcall _
  simp only [List.mem_cons, List.not_mem_nil, or_false] at hcall
  obtain rfl | rfl := hcall
  · exact ⟨_, _, rfl, rfl⟩
  · exact ⟨_, _, rfl, rfl⟩

/-- A fresh handler beside one with checkpoint 5: the stream starts from now,
and the retained event 7 is not delivered. -/
theorem fresh_handler_drops_retained :
    ¬ delivers_retained (ResumeScan.of_calls [(orders_handler (some "billing") none .Durable 0, fun _ => .ok (some 5)),
      (orders_handler (some "audit") none .Durable 1, fun _ => .ok none)]).result (orders_event none 7) := by
  have hnow : (ResumeScan.of_calls [(orders_handler (some "billing") none .Durable 0, fun _ => .ok (some 5)),
      (orders_handler (some "audit") none .Durable 1, fun _ => .ok none)]).result = none := rfl
  rw [hnow]
  exact not_delivers_retained_none _

end photon_valence_identity.executor
