import PhotonValence.Executor.Delivery

open photon_backend valence register transition slots

namespace photon_valence_identity.executor

/-- The lookups of a subscription task are over, and those for its durable named
handlers were answered what `get_checkpoint_seq` answers. -/
structure GroupTask.LookedUp {Value : Type} (group : GroupTask Value)
    (get_checkpoint_seq : String → String → Option String → CheckpointAnswer) : Prop where
  lookups_over : group.handlers.length ≤ group.answers.length
  answers_eq : ∀ (j : Nat) (h : HandlerDescriptor) (answer : CheckpointAnswer), group.handlers[j]? = some h →
    group.answers[j]? = some answer → h.mode = .Durable → ∀ name, h.subscription_name = some name →
      answer = get_checkpoint_seq name group.topic_name group.topic_key_filter

/-- A subscription task whose lookups are over, in whatever turns they were made,
resumes where `initial_subscription_after_seq` says. -/
theorem GroupTask.LookedUp.after_seq_eq {Value : Type} {group : GroupTask Value}
    {get_checkpoint_seq : String → String → Option String → CheckpointAnswer}
    (hlooked : group.LookedUp get_checkpoint_seq) (hscan : group.scan = ResumeScan.of_calls group.calls) :
    group.after_seq = initial_subscription_after_seq get_checkpoint_seq group.topic_name group.topic_key_filter
      group.handlers := by
  -- for a durable handler the task saw the checkpoint that the function sees
  have hsame : ∀ (j : Nat) (h : HandlerDescriptor) (answer : CheckpointAnswer), group.handlers[j]? = some h →
      group.answers[j]? = some answer → h.mode = .Durable → checkpoint h (fun _ => answer) =
        checkpoint h fun name => get_checkpoint_seq name group.topic_name group.topic_key_filter := by
    intro j h answer hj hanswer hmode
    cases hname : h.subscription_name with
    | none => simp only [checkpoint, hname]
    | some name => simp only [checkpoint, hname, hlooked.answers_eq j h answer hj hanswer hmode name hname]
  rw [GroupTask.after_seq, hscan, ResumeScan.result_of_calls, initial_subscription_after_seq_eq]
  refine leastPresent_congr fun found => ?_
  rw [mem_durable_checkpoints_iff, mem_durable_checkpoints]
  constructor
  · rintro ⟨call, hcall, hmode, rfl⟩
    obtain ⟨j, h, answer, hj, hanswer, rfl⟩ := GroupTask.mem_calls_iff.mp hcall
    exact ⟨h, List.mem_of_getElem? hj, hmode, (hsame j h answer hj hanswer hmode).symm⟩
  · rintro ⟨h, hh, hmode, rfl⟩
    obtain ⟨j, answer, hj, hanswer, hcall⟩ := GroupTask.call_of_mem hlooked.lookups_over hh
    exact ⟨_, hcall, hmode, hsame j h answer hj hanswer hmode⟩

/-- In every run, a group resumes where the function says, over the handlers
registered for its key. -/
theorem Executor.Reachable.resume_point_eq {Value Actor Valence : Type} {self : Executor Value Actor Valence}
    {ok : State Value Valence → Action Value → Prop} {s : State Value Valence} (hreachable : self.Reachable ok s)
    {g : Nat} {group : GroupTask Value} (hgroup : s.groups[g]? = some group)
    {get_checkpoint_seq : String → String → Option String → CheckpointAnswer}
    (hlooked : group.LookedUp get_checkpoint_seq) :
    group.after_seq = initial_subscription_after_seq get_checkpoint_seq group.topic_name group.topic_key_filter
      (self.registry.handlers_for_topic_key group.topic_name group.topic_key_filter) := by
  rw [← hreachable.sound.handlers_eq group (List.mem_of_getElem? hgroup)]
  exact hlooked.after_seq_eq (hreachable.scanned g group hgroup)

/-- The order in which the descriptors were linked does not matter, nor do the
order of the keys, the size of the pool, the factory or the schedule. Two
executors over the same handlers whose lookups got the same answers resume a
group at the same point, that of `initial_subscription_after_seq`; and as far as
the group pulls the same from its stream in both, each of its handlers is handed
the same events by both, in the same order. -/
theorem link_order_irrelevant {Value Actor Valence : Type} {self other : Executor Value Actor Valence}
    {s s' : State Value Valence} {g g' : Nat} {group group' : GroupTask Value}
    {get_checkpoint_seq : String → String → Option String → CheckpointAnswer}
    (hinventory : ∀ h, h ∈ self.registry.iter ↔ h ∈ other.registry.iter)
    (hreachable : self.Reachable anyStep s) (hreachable' : other.Reachable anyStep s')
    (hgroup : s.groups[g]? = some group) (hgroup' : s'.groups[g']? = some group') (hkey : group.key = group'.key)
    (hlooked : group.LookedUp get_checkpoint_seq) (hlooked' : group'.LookedUp get_checkpoint_seq)
    (hpulled : group.pulled <+: group'.pulled) :
    group.after_seq = initial_subscription_after_seq get_checkpoint_seq group.topic_name group.topic_key_filter
        (self.registry.handlers_for_topic_key group.topic_name group.topic_key_filter) ∧
      group.after_seq = group'.after_seq ∧
      ∀ (k k' : Nat) (h : HandlerDescriptor), group.handlers[k]? = some h → group'.handlers[k']? = some h →
        (s.handed g k <+: s'.handed g' k' ∨ s'.handed g' k' <+: s.handed g k) ∧
        (group'.pc = .polling → s.handed g k <+: s'.handed g' k') ∧
        (group.pc = .polling → group'.pc = .polling → group.pulled = group'.pulled →
          s.handed g k = s'.handed g' k') := by
  have hsound := hreachable.sound
  have hsound' := hreachable'.sound
  have hresumed := hreachable.resume_point_eq hgroup hlooked
  have hafter : group.after_seq = group'.after_seq := by
    obtain ⟨htopic, hfilter⟩ := Prod.mk.inj hkey
    rw [hresumed, hreachable'.resume_point_eq hgroup' hlooked', htopic, hfilter]
    refine initial_subscription_after_seq_congr fun h _ => ?_
    rw [HandlerRegistry.handlers_for_topic_key_eq, HandlerRegistry.handlers_for_topic_key_eq, List.mem_filter,
      List.mem_filter, hinventory h]
  refine ⟨hresumed, hafter, fun k k' h hk hk' => ?_⟩
  have hhanded := hsound.handed_eq hgroup hk
  have hhanded' := hsound'.handed_eq hgroup' hk'
  have hoffered := (group.offered_prefix k).trans hpulled
  refine ⟨?_, fun hpolling' => ?_, fun hpolling hpolling' hsame => ?_⟩
  · rw [hhanded, hhanded']
    obtain hbehind | hahead := List.prefix_or_prefix_of_prefix hoffered (group'.offered_prefix k')
    · exact .inl ((hbehind.filter _).map _)
    · exact .inr ((hahead.filter _).map _)
  · rw [hhanded, hhanded', GroupTask.offered_eq_pulled hpolling']
    exact (hoffered.filter _).map _
  · rw [hhanded, hhanded', GroupTask.offered_eq_pulled hpolling, GroupTask.offered_eq_pulled hpolling', hsame]

/-- A durable and an ephemeral handler of the same topic, linked in either
order. -/
def linked (reversed : Bool) : Executor ActorJson Actor Actor :=
  let inventory := [orders_handler (some "billing") none .Durable 0, orders_handler (some "audit") none .Ephemeral 1]
  Executor.of_inventory open_env (if reversed then inventory.reverse else inventory) (if reversed then 1 else 2)

def checkpoint_one (_ _ : String) (_ : Option String) : CheckpointAnswer := .ok (some 1)

/-- One dispatch, from its permit to its end. -/
def handling (i : Nat) (recorded : Bool) : List (Action ActorJson) :=
  let called := [Turn.acquire, .gate, .build, .invoke, .returned .Ok]
  let turns := if recorded then called ++ [.coalescer_record, .recorded true] else called
  turns.map fun turn => .dispatch i turn

/-- Two events are pulled. In the reversed order a dispatch of the first is
handled before the second comes. -/
def pulling (reversed : Bool) : List (Action ActorJson) :=
  let round (seq : Int) : List (Action ActorJson) :=
    [.group 0 (.next (some (.ok (orders_event none seq)))), .group 0 .spawn, .group 0 .spawn, .group 0 .spawn]
  [.spawn_group, .group 0 (.lookup (.ok (some 1))), .group 0 (.lookup (.ok (some 1))), .group 0 .subscribe] ++
    if reversed then round 2 ++ handling 0 false ++ round 3 else round 2 ++ round 3

/-- A run over these handlers in which their group has come to wait for its
stream again. -/
theorem exists_linked_run (reversed : Bool) : ∃ s group,
    execute (linked reversed).step (linked reversed).start (pulling reversed) = some s ∧
    s.groups[0]? = some group ∧ group.key = ("orders", none) ∧ group.LookedUp checkpoint_one ∧
    group.pulled = [orders_event none 2, orders_event none 3] ∧ group.pc = .polling ∧
    group.handlers[if reversed then 1 else 0]? = some (orders_handler (some "billing") none .Durable 0) ∧
    (s.handed 0 (if reversed then 1 else 0)).map (fun args => args.ev.seq) = [2, 3] := by
  have hlooked : ∀ group : GroupTask ActorJson, group.handlers.length = 2 →
      group.answers = [.ok (some 1), .ok (some 1)] → group.LookedUp checkpoint_one := by
    intro group hlength hanswers
    refine ⟨by simp [hlength, hanswers], fun j h answer _ hanswer _ name _ => ?_⟩
    have hmem := List.mem_of_getElem? hanswer
    simpa [hanswers, checkpoint_one] using hmem
  cases reversed with
  | false => exact ⟨_, _, rfl, rfl, rfl, hlooked _ rfl rfl, rfl, rfl, rfl, rfl⟩
  | true => exact ⟨_, _, rfl, rfl, rfl, hlooked _ rfl rfl, rfl, rfl, rfl, rfl⟩

theorem link_order_irrelevant_reversed : ∃ s s' : State ActorJson Actor,
    execute (linked false).step (linked false).start (pulling false) = some s ∧
    execute (linked true).step (linked true).start (pulling true) = some s' ∧
    (s.handed 0 0).map (fun args => args.ev.seq) = [2, 3] ∧ s.handed 0 0 = s'.handed 0 1 := by
  obtain ⟨s, group, hran, hgroup, hkey, hlooked, hpulled, hpolling, hk, hhanded⟩ := exists_linked_run false
  obtain ⟨s', group', hran', hgroup', hkey', hlooked', hpulled', hpolling', hk', _⟩ := exists_linked_run true
  have hinventory : ∀ h, h ∈ (linked false).registry.iter ↔ h ∈ (linked true).registry.iter := by
    have hiter : (linked false).registry.iter = (linked true).registry.iter.reverse := rfl
    rw [hiter]
    exact fun h => List.mem_reverse
  have hsame : group.pulled = group'.pulled := hpulled.trans hpulled'.symm
  obtain ⟨_, _, hall⟩ := link_order_irrelevant hinventory (execute_anyStep _ hran) (execute_anyStep _ hran') hgroup
    hgroup' (hkey.trans hkey'.symm) hlooked hlooked' (hsame ▸ List.prefix_refl _)
  exact ⟨s, s', hran, hran', hhanded, (hall 0 1 _ hk hk').2.2 hpolling hpolling' hsame⟩

end photon_valence_identity.executor
