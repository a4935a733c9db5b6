import PhotonValence.Executor.Inventory
import PhotonValence.Executor.Store

open photon_backend valence register transition slots

namespace photon_valence_identity.executor

/-- Every checkpoint call succeeds. -/
def RecordsSucceed {Value Valence : Type} (_ : State Value Valence) : Action Value → Prop
  | .dispatch _ (.recorded ok) => ok = true
  | _ => True

instance {Value Valence : Type} (s : State Value Valence) (action : Action Value) :
    Decidable (RecordsSucceed s action) :=
  match action with
  | .dispatch _ (.recorded ok) => inferInstanceAs (Decidable (ok = true))
  | .dispatch _ .acquire | .dispatch _ .gate | .dispatch _ .build | .dispatch _ .invoke => instDecidableTrue
  | .dispatch _ (.returned _) | .dispatch _ (.dlq_record _) | .dispatch _ .coalescer_record => instDecidableTrue
  | .spawn_group | .group _ _ | .abort | .cancel _ => instDecidableTrue

/-- The seqs handler `k` of group `g` has successfully handled. -/
def State.handled {Value Valence : Type} (s : State Value Valence) (g k : Nat) : List Int :=
  (s.tasks.filter fun task => task.group = g ∧ task.entry = k ∧ task.pc.returned_ok = true).map
    fun task => task.args.ev.seq

/-- What the group's checkpoints read back after a restart: the resume point is
`m`, and every triple a dispatch of the group has recorded under is the one
that is looked up for its handler. -/
structure RoundTrip {Value Valence : Type} (s : State Value Valence) (g : Nat) (group : GroupTask Value)
    (m : Int) : Prop where
  resumes : s.resume_point group = some m
  same_triple : ∀ (i : Nat) (task : DispatchTask Value Valence) (name topic_name : String)
    (topic_key : Option String) (seq : Int), s.tasks[i]? = some task → task.group = g →
    (i, .coalescer_record name topic_name topic_key seq) ∈ s.trace →
    ∃ h, group.handlers[task.entry]? = some h ∧ read_slot h = some (name, topic_name, topic_key)

/-- The runs whose checkpoints read back. The durable handlers of the group
have succeeded only on events whose topic key is the key filter of the group.
The durable handlers outside of `entries` have a name too, under which an event
with the filter as its key was handled at or past `m`. In the slot of one of
the durable handlers nothing was handled past `m`, by this handler or another
one that shares the slot. -/
structure KeysMatchFilter {Value Valence : Type} (s : State Value Valence) (g : Nat)
    (group : GroupTask Value) (entries : List Nat) (m : Int) : Prop where
  keys : ∀ task ∈ s.tasks, task.group = g → task.args.slot ≠ none → task.pc.returned_ok = true →
    task.args.ev.topic_key = group.topic_key_filter
  others : ∀ k ∉ entries, ∀ h, group.handlers[k]? = some h → h.mode = .Durable →
    ∃ slot, read_slot h = some slot ∧
      ∃ task ∈ s.tasks, task.args.slot = some slot ∧ task.pc.returned_ok = true ∧ m ≤ task.args.ev.seq
  least : ∃ h ∈ group.handlers, ∃ slot, read_slot h = some slot ∧
    ∀ task ∈ s.tasks, task.args.slot = some slot → task.pc.returned_ok = true → task.args.ev.seq ≤ m

theorem Pc.recorded_of_ended {Valence : Type} {pc : Pc Valence} (hended : pc.ended = true)
    (hreturned : pc.returned_ok = true) : pc.recorded = true := by
  cases pc with
  | recording | succeeded => rfl
  | dead_lettered | panicked => cases hreturned
  | _ => cases hended

namespace Sound

/-- Once all dispatches have ended, the store holds exactly what was handled. -/
theorem mem_checkpoints_of_ended {Value Actor Valence : Type} {self : Executor Value Actor Valence}
    {s : State Value Valence} (hsound : Sound self s) (hended : ∀ task ∈ s.tasks, task.pc.ended = true)
    {slot : Slot} {seq : Int} :
    (slot, seq) ∈ s.checkpoints ↔
      ∃ task ∈ s.tasks, task.args.slot = some slot ∧ task.args.ev.seq = seq ∧ task.pc.returned_ok = true := by
  rw [hsound.mem_checkpoints_iff]
  constructor
  · rintro ⟨task, htask, hslot, hseq, hrecorded⟩
    exact ⟨task, htask, hslot, hseq, Pc.returned_ok_of_recorded hrecorded⟩
  · rintro ⟨task, htask, hslot, hseq, hreturned⟩
    exact ⟨task, htask, hslot, hseq, Pc.recorded_of_ended (hended task htask) hreturned⟩

/-- A dispatch writes the slot that is read for its handler, but with the
event's topic key in the place of the key filter. -/
theorem slot_eq {Value Actor Valence : Type} {self : Executor Value Actor Valence}
    {s : State Value Valence} (hsound : Sound self s) {task : DispatchTask Value Valence}
    (htask : task ∈ s.tasks) {group : GroupTask Value} (hgroup : s.groups[task.group]? = some group) :
    ∃ h, group.handlers[task.entry]? = some h ∧ task.args.slot =
      (read_slot h).map fun slot => (slot.1, slot.2.1, task.args.ev.topic_key) := by
  obtain ⟨h, ⟨group', hgroup', hentry, _, hmatches⟩, hargs⟩ := hsound.takes_of_task htask
  cases Option.some.inj (hgroup.symm.trans hgroup')
  obtain ⟨htopic, _⟩ := (HandlerDescriptor.matches_event_iff _ _ _).mp hmatches
  refine ⟨h, hentry, ?_⟩
  rw [hargs]
  simp only [DispatchArgs.slot, dispatch_args, is_durable_descriptor, read_slot, decide_eq_true_eq, htopic]
  split <;> cases h.subscription_name <;> rfl

/-- The slot read for a handler of a group carries the group's key filter. -/
theorem read_slot_key {Value Actor Valence : Type} {self : Executor Value Actor Valence}
    {s : State Value Valence} (hsound : Sound self s) {group : GroupTask Value} (hgroup : group ∈ s.groups)
    {h : HandlerDescriptor} (hh : h ∈ group.handlers) {slot : Slot} (hslot : read_slot h = some slot) :
    slot.2.2 = group.topic_key_filter := by
  obtain ⟨_, hfilter⟩ := hsound.topicKey_eq hgroup hh
  obtain ⟨name, topic_name, topic_key⟩ := slot
  rw [← hfilter]
  exact (read_slot_eq_some_iff.mp hslot).2.2.2.symm

/-- Dispatches of events whose topic key is the group's filter write the slot
that is read. -/
theorem slot_eq_read_slot {Value Actor Valence : Type} {self : Executor Value Actor Valence}
    {s : State Value Valence} (hsound : Sound self s) {task : DispatchTask Value Valence}
    (htask : task ∈ s.tasks) {group : GroupTask Value} (hgroup : s.groups[task.group]? = some group)
    (hkey : task.args.slot ≠ none → task.args.ev.topic_key = group.topic_key_filter) :
    ∃ h, group.handlers[task.entry]? = some h ∧ task.args.slot = read_slot h := by
  obtain ⟨h, hentry, hwrites⟩ := hsound.slot_eq htask hgroup
  refine ⟨h, hentry, ?_⟩
  cases hread : read_slot h with
  | none => rw [hwrites, hread, Option.map_none]
  | some slot =>
    have hfilter := hsound.read_slot_key (List.mem_of_getElem? hgroup) (List.mem_of_getElem? hentry) hread
    have hsame : task.args.ev.topic_key = group.topic_key_filter := hkey (by simp [hwrites, hread])
    rw [hwrites, hread, Option.map_some, hsame, ← hfilter]

/-- What a handler has handled stands in the slot that is read for it. -/
theorem checkpoint_of_handled {Value Actor Valence : Type} {self : Executor Value Actor Valence}
    {s : State Value Valence} (hsound : Sound self s) (hended : ∀ task ∈ s.tasks, task.pc.ended = true)
    {g k : Nat} {group : GroupTask Value} (hgroup : s.groups[g]? = some group)
    (hkeys : ∀ task ∈ s.tasks, task.group = g → task.args.slot ≠ none → task.pc.returned_ok = true →
      task.args.ev.topic_key = group.topic_key_filter)
    {h : HandlerDescriptor} (hk : group.handlers[k]? = some h) {slot : Slot} (hslot : read_slot h = some slot)
    {seq : Int} (hseq : seq ∈ s.handled g k) : (slot, seq) ∈ s.checkpoints := by
  obtain ⟨task, htask, rfl⟩ := List.mem_map.mp hseq
  simp only [List.mem_filter, decide_eq_true_eq] at htask
  obtain ⟨htask, rfl, rfl, hreturned⟩ := htask
  obtain ⟨h', hh', hwrites⟩ := hsound.slot_eq_read_slot htask hgroup
    fun hwrites => hkeys task htask rfl hwrites hreturned
  cases Option.some.inj (hk.symm.trans hh')
  exact (hsound.mem_checkpoints_of_ended hended).mpr ⟨task, htask, hwrites.trans hslot, rfl, hreturned⟩

end Sound

/-- Checkpoints survive a restart exactly when the events handled carry the
group's key filter as their topic key and nobody else's checkpoints stand in
the group's slots. -/
theorem round_trip_iff {Value Actor Valence : Type} {self : Executor Value Actor Valence}
    {s : State Value Valence} {g : Nat} {group : GroupTask Value} {entries : List Nat} {m : Int}
    (hreachable : self.Reachable RecordsSucceed s) (hended : ∀ task ∈ s.tasks, task.pc.ended = true)
    (hgroup : s.groups[g]? = some group)
    (hentries : ∀ k ∈ entries, ∃ h, group.handlers[k]? = some h ∧ read_slot h ≠ none)
    (hleast : leastPresent (entries.map fun k => (s.handled g k).max?) = some m) :
    RoundTrip s g group m ↔ KeysMatchFilter s g group entries m := by
  have hsound := hreachable.sound
  have hmember := List.mem_of_getElem? hgroup
  constructor
  · rintro ⟨hresumes, htriple⟩
    obtain ⟨hall, h, hh, slot, hslot, hbound⟩ := (hsound.keyed hmember).resume_point_eq_some_iff.mp hresumes
    refine ⟨?_, ?_, h, hh, slot, hslot, ?_⟩
    · intro task htask hin hwrites hreturned
      obtain ⟨⟨name, topic_name, topic_key⟩, hslot'⟩ := Option.ne_none_iff_exists'.mp hwrites
      obtain ⟨hdurable, hname, htopic, hkey⟩ := DispatchArgs.slot_eq_some_iff.mp hslot'
      have hpast := Pc.recorded_of_ended (hended task htask) hreturned
      obtain ⟨i, hi⟩ := List.mem_iff_getElem?.mp htask
      have hrecord := hsound.coalescer_record_of_past hi hpast hdurable hname
      obtain ⟨other, hother, hread⟩ := htriple i task _ _ _ _ hi hin hrecord
      exact hsound.read_slot_key hmember (List.mem_of_getElem? hother) hread
    · intro k _ other hother hmode
      obtain ⟨slot', hslot', seq, hmem, hle⟩ := hall other (List.mem_of_getElem? hother) hmode
      obtain ⟨task, htask, hwrites, rfl, hreturned⟩ := (hsound.mem_checkpoints_of_ended hended).mp hmem
      exact ⟨slot', hslot', task, htask, hwrites, hreturned, hle⟩
    · intro task htask hwrites hreturned
      exact hbound _ ((hsound.mem_checkpoints_of_ended hended).mpr ⟨task, htask, hwrites, rfl, hreturned⟩)
  · rintro ⟨hkeys, hothers, h, hh, slot, hslot, hbound⟩
    constructor
    · refine (hsound.keyed hmember).resume_point_eq_some_iff.mpr ⟨?_, h, hh, slot, hslot, ?_⟩
      · intro other hother hmode
        obtain ⟨k, hk⟩ := List.mem_iff_getElem?.mp hother
        by_cases hin : k ∈ entries
        · obtain ⟨answer, hanswer, hle⟩ :=
            (leastPresent_eq_some_iff.mp hleast).1 _ (List.mem_map_of_mem hin)
          have hhandled := (List.max?_eq_some_iff.mp hanswer).1
          obtain ⟨h', hh', hread⟩ := hentries k hin
          cases Option.some.inj (hk.symm.trans hh')
          obtain ⟨slot', hslot'⟩ := Option.ne_none_iff_exists'.mp hread
          exact ⟨slot', hslot', answer,
            hsound.checkpoint_of_handled hended hgroup hkeys hk hslot' hhandled, hle⟩
        · obtain ⟨slot', hslot', task, htask, hwrites, hreturned, hle⟩ := hothers k hin other hk hmode
          exact ⟨slot', hslot', _, (hsound.mem_checkpoints_of_ended hended).mpr
            ⟨task, htask, hwrites, rfl, hreturned⟩, hle⟩
      · intro seq hmem
        obtain ⟨task, htask, hwrites, rfl, hreturned⟩ := (hsound.mem_checkpoints_of_ended hended).mp hmem
        exact hbound task htask hwrites hreturned
    · intro i task name topic_name topic_key seq htask hin hrecord
      obtain ⟨caller, hcaller, hpc, hdurable, hname, htopic, hkey, _⟩ := hsound.coalescer_record_mem hrecord
      cases Option.some.inj (htask.symm.trans hcaller)
      subst hin
      have hslot' : task.args.slot = some (name, topic_name, topic_key) :=
        DispatchArgs.slot_eq_some_iff.mpr ⟨hdurable, hname, htopic.symm, hkey.symm⟩
      have hreturned := Pc.returned_ok_of_recorded hpc
      have hmem := List.mem_of_getElem? htask
      obtain ⟨h', hh', hwrites⟩ := hsound.slot_eq_read_slot hmem hgroup
        fun hwrites => hkeys task hmem rfl hwrites hreturned
      exact ⟨h', hh', by rw [← hwrites, hslot']⟩

/-- A run that handles one event, seq 5 with the topic key `eu`, to the end. -/
def handling_one : List (Action ActorJson) :=
  [.spawn_group, .group 0 (.lookup (.ok none)), .group 0 .subscribe,
    .group 0 (.next (some (.ok (orders_event (some "eu") 5)))), .group 0 .spawn, .group 0 .spawn,
    .dispatch 0 .acquire, .dispatch 0 .gate, .dispatch 0 .build, .dispatch 0 .invoke,
    .dispatch 0 (.returned .Ok), .dispatch 0 .coalescer_record, .dispatch 0 (.recorded true)]

/-- One durable handler for the orders of one key. -/
def eu_executor : Executor ActorJson Actor Actor :=
  Executor.of_inventory open_env [orders_handler (some "billing") (some "eu") .Durable 0] 2

/-- The group of a single durable handler after `handling_one`. -/
def handled_group (filter : Option String) : GroupTask ActorJson where
  topic_name := "orders"
  topic_key_filter := filter
  handlers := [orders_handler (some "billing") filter .Durable 0]
  scan := { any_durable := true, all_have_cp := false }
  answers := [.ok none]
  rounds := [orders_event (some "eu") 5]
  pc := .polling

def handled_eu : State ActorJson Actor :=
  (execute eu_executor.step eu_executor.start handling_one).get rfl

/-- The keyed event of a keyed group reads back. -/
theorem round_trip_eu : RoundTrip handled_eu 0 (handled_group (some "eu")) 5 := by
  have hreachable : eu_executor.Reachable RecordsSucceed handled_eu :=
    execute_steps handling_one (by decide) (Option.some_get _).symm
  have htasks : handled_eu.tasks = [⟨⟨0, 0, 0, dispatch_args (orders_handler (some "billing") (some "eu")
    .Durable 0) (orders_event (some "eu") 5)⟩, .succeeded⟩] := rfl
  have hended : ∀ task ∈ handled_eu.tasks, task.pc.ended = true := by simp [htasks, Pc.ended]
  have hentries : ∀ k ∈ [0], ∃ h, (handled_group (some "eu")).handlers[k]? = some h ∧ read_slot h ≠ none := by
    intro k hk
    rw [List.mem_singleton] at hk
    subst hk
    exact ⟨_, rfl, by decide⟩
  refine (round_trip_iff hreachable hended rfl hentries rfl).mpr ⟨?_, ?_, ?_⟩
  · simp [htasks, handled_group, dispatch_args, orders_event]
  · intro k hk h hh
    obtain ⟨hlt, _⟩ := List.getElem?_eq_some_iff.mp hh
    simp only [List.mem_singleton] at hk
    simp only [handled_group, List.length_singleton] at hlt
    omega
  · refine ⟨_, .head _, _, rfl, ?_⟩
    simp [htasks, dispatch_args, orders_event]

def handled_unfiltered : State ActorJson Actor :=
  (execute billing_executor.step billing_executor.start handling_one).get rfl

/-- The keyed event of an unfiltered group does not. -/
theorem keyed_event_lost :
    billing_executor.Reachable RecordsSucceed handled_unfiltered ∧
      (∀ task ∈ handled_unfiltered.tasks, task.pc.ended = true) ∧
      handled_unfiltered.groups = [handled_group none] ∧
      leastPresent ([0].map fun k => (handled_unfiltered.handled 0 k).max?) = some 5 ∧
      handled_unfiltered.resume_point (handled_group none) = none ∧
      ¬ RoundTrip handled_unfiltered 0 (handled_group none) 5 := by
  have hreachable : billing_executor.Reachable RecordsSucceed handled_unfiltered :=
    execute_steps handling_one (by decide) (Option.some_get _).symm
  have hlost : handled_unfiltered.resume_point (handled_group none) = none := rfl
  have htasks : handled_unfiltered.tasks = [⟨⟨0, 0, 0, dispatch_args (orders_handler (some "billing") none
    .Durable 0) (orders_event (some "eu") 5)⟩, .succeeded⟩] := rfl
  refine ⟨hreachable, ?_, rfl, rfl, hlost, fun hround => ?_⟩
  · simp [htasks, Pc.ended]
  · have hresumes := hround.resumes
    rw [hlost] at hresumes
    cases hresumes

end photon_valence_identity.executor
