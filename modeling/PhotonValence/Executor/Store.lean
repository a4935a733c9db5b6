import PhotonValence.Executor.Pairs
import PhotonValence.Register.Greatest

open photon_backend register

namespace photon_valence_identity.executor

/-- What identifies a checkpoint: subscription name, topic and topic key. -/
abbrev Slot := String × String × Option String

/-- The slot a dispatch records its event under, if it is to record it. -/
def DispatchArgs.slot {Value : Type} (args : DispatchArgs Value) : Option Slot :=
  if args.is_durable then
    args.subscription_name.map fun name => (name, args.topic_name, args.ev.topic_key)
  else none

/-- The slot the checkpoint of a handler is looked up under for its group. -/
def read_slot (h : HandlerDescriptor) : Option Slot :=
  if h.mode = .Durable then
    h.subscription_name.map fun name => (name, h.topic_name, h.topic_key_filter)
  else none

def Effect.checkpoint {Value Valence : Type} : Effect Value Valence → Option (Slot × Int)
  | .coalescer_record name topic_name topic_key seq => some ((name, topic_name, topic_key), seq)
  | _ => none

/-- Everything recorded through the coalescer, oldest first. -/
def State.checkpoints {Value Valence : Type} (s : State Value Valence) : List (Slot × Int) :=
  s.trace.filterMap fun entry => entry.2.checkpoint

/-- `Photon::get_checkpoint_seq` over this store: the greatest seq recorded
under exactly the given triple. -/
def State.get_checkpoint_seq {Value Valence : Type} (s : State Value Valence) (name topic_name : String)
    (topic_key : Option String) : CheckpointAnswer :=
  .ok (greatest s.checkpoints (name, topic_name, topic_key))

/-- What `initial_subscription_after_seq` returns when it is called for a group
of this state. -/
def State.resume_point {Value Valence : Type} (s : State Value Valence) (group : GroupTask Value) :
    Option Int :=
  initial_subscription_after_seq s.get_checkpoint_seq group.topic_name group.topic_key_filter group.handlers

theorem DispatchArgs.slot_eq_some_iff {Value : Type} {args : DispatchArgs Value} {name topic_name : String}
    {topic_key : Option String} :
    args.slot = some (name, topic_name, topic_key) ↔ args.is_durable = true ∧
      args.subscription_name = some name ∧ args.topic_name = topic_name ∧ args.ev.topic_key = topic_key := by
  unfold DispatchArgs.slot
  cases args.is_durable <;> cases args.subscription_name <;> simp

/-- A dispatch before its checkpoint call is about to write its slot. -/
theorem Ledger.slot_eq {Value Actor Valence : Type} {env : DispatchEnv Value Actor Valence}
    {args : DispatchArgs Value} {log : List (Effect Value Valence)} {name : String}
    (hledger : Ledger env args (.checkpoint name) log) :
    args.slot = some (name, args.topic_name, args.ev.topic_key) := by
  cases hledger with
  | checkpoint _ hdurable hname => exact DispatchArgs.slot_eq_some_iff.mpr ⟨hdurable, hname, rfl, rfl⟩

theorem read_slot_eq_some_iff {h : HandlerDescriptor} {name topic_name : String}
    {topic_key : Option String} :
    read_slot h = some (name, topic_name, topic_key) ↔ h.mode = .Durable ∧
      h.subscription_name = some name ∧ h.topic_name = topic_name ∧ h.topic_key_filter = topic_key := by
  unfold read_slot
  cases h.mode <;> cases h.subscription_name <;> simp

theorem mem_checkpoints_iff {Value Valence : Type} {s : State Value Valence} {name topic_name : String}
    {topic_key : Option String} {seq : Int} :
    ((name, topic_name, topic_key), seq) ∈ s.checkpoints ↔
      ∃ i, (i, .coalescer_record name topic_name topic_key seq) ∈ s.trace := by
  simp only [State.checkpoints, List.mem_filterMap, Prod.exists]
  constructor
  · rintro ⟨i, effect, hmem, hcheckpoint⟩
    cases effect with
    | coalescer_record =>
      cases hcheckpoint
      exact ⟨i, hmem⟩
    | _ => cases hcheckpoint
  · rintro ⟨i, hmem⟩
    exact ⟨i, _, hmem, rfl⟩

/-- A step adds at most one entry to the store: that of the dispatch whose
checkpoint call it is. -/
theorem Executor.Transition.checkpoints {Value Actor Valence : Type} {self : Executor Value Actor Valence}
    {s s' : State Value Valence} {action : Action Value} (htransition : self.Transition s action s') :
    s'.checkpoints = s.checkpoints ∨
      ∃ (i : Nat) (task : DispatchTask Value Valence) (name : String), s.tasks[i]? = some task ∧
        task.pc = .checkpoint name ∧ s'.checkpoints = s.checkpoints ++
          [((name, task.args.topic_name, task.args.ev.topic_key), task.args.ev.seq)] := by
  cases htransition with
  | @dispatch i turn task pc' effects permits htask hmoves =>
    have happend : ∀ effects : List (Effect Value Valence),
        ({ s with
          permits
          tasks := s.tasks.set i { task with pc := pc' }
          trace := s.trace ++ effects.map (i, ·) } : State Value Valence).checkpoints =
          s.checkpoints ++ effects.filterMap Effect.checkpoint := by
      intro effects
      simp only [State.checkpoints, List.filterMap_append, List.filterMap_map]
      rfl
    rw [happend]
    generalize hpc : task.pc = pc at hmoves
    cases hmoves with
    | coalescer_record name => exact .inr ⟨i, task, name, htask, hpc, rfl⟩
    | _ => exact .inl (List.append_nil _)
  | _ => exact .inl rfl

/-- The handlers of a group have its topic and filter. -/
def GroupTask.Keyed {Value : Type} (group : GroupTask Value) : Prop :=
  ∀ h ∈ group.handlers, h.topic_name = group.topic_name ∧ h.topic_key_filter = group.topic_key_filter

namespace GroupTask.Keyed

/-- The checkpoint of a durable handler is the greatest seq in its slot. -/
theorem checkpoint_eq {Value Valence : Type} {group : GroupTask Value} (hkeyed : group.Keyed)
    (s : State Value Valence) {h : HandlerDescriptor} (hh : h ∈ group.handlers) (hmode : h.mode = .Durable) :
    checkpoint h (s.get_checkpoint_seq · group.topic_name group.topic_key_filter) =
      (read_slot h).bind (greatest s.checkpoints) := by
  obtain ⟨htopic, hfilter⟩ := hkeyed h hh
  unfold checkpoint read_slot State.get_checkpoint_seq
  rw [if_pos hmode, htopic, hfilter]
  cases h.subscription_name <;> rfl

/-- A group resumes at `m` exactly when every durable handler of it has a slot
that holds something from `m` on, and one of the slots nothing past `m`. -/
theorem resume_point_eq_some_iff {Value Valence : Type} {group : GroupTask Value} (hkeyed : group.Keyed)
    {s : State Value Valence} {m : Int} :
    s.resume_point group = some m ↔
      (∀ h ∈ group.handlers, h.mode = .Durable → ∃ slot, read_slot h = some slot ∧
        ∃ seq, (slot, seq) ∈ s.checkpoints ∧ m ≤ seq) ∧
      ∃ h ∈ group.handlers, ∃ slot, read_slot h = some slot ∧
        ∀ seq, (slot, seq) ∈ s.checkpoints → seq ≤ m := by
  rw [State.resume_point, initial_subscription_after_seq_eq_some_iff]
  constructor
  · rintro ⟨hall, h, hh, hmode, hleast⟩
    refine ⟨fun other hother hdurable => ?_, h, hh, ?_⟩
    · obtain ⟨top, htop, hle⟩ := hall other hother hdurable
      rw [hkeyed.checkpoint_eq s hother hdurable] at htop
      obtain ⟨slot, hslot, hgreatest⟩ := Option.bind_eq_some_iff.mp htop
      exact ⟨slot, hslot, top, (greatest_eq_some_iff.mp hgreatest).1, hle⟩
    · rw [hkeyed.checkpoint_eq s hh hmode] at hleast
      obtain ⟨slot, hslot, hgreatest⟩ := Option.bind_eq_some_iff.mp hleast
      exact ⟨slot, hslot, (greatest_eq_some_iff.mp hgreatest).2⟩
  · rintro ⟨hall, h, hh, slot, hslot, hbound⟩
    have hdurable : h.mode = .Durable := (read_slot_eq_some_iff.mp hslot).1
    refine ⟨fun other hother hmode => ?_, h, hh, hdurable, ?_⟩
    · obtain ⟨slot', hslot', seq, hmem, hle⟩ := hall other hother hmode
      obtain ⟨top, htop, htop_le⟩ := exists_greatest_of_mem hmem
      refine ⟨top, ?_, by omega⟩
      rw [hkeyed.checkpoint_eq s hother hmode, hslot', Option.bind_some, htop]
    · obtain ⟨slot', hslot', seq, hmem, hle⟩ := hall h hh hdurable
      cases Option.some.inj (hslot.symm.trans hslot')
      have hseq : seq = m := by
        have hupper := hbound seq hmem
        omega
      rw [hseq] at hmem
      rw [hkeyed.checkpoint_eq s hh hdurable, hslot, Option.bind_some]
      exact greatest_eq_some_iff.mpr ⟨hmem, hbound⟩

/-- The resume point of a group depends only on the slots it looks up. -/
theorem resume_point_congr {Value Valence : Type} {group : GroupTask Value} (hkeyed : group.Keyed)
    {s s' : State Value Valence}
    (hsame : ∀ h ∈ group.handlers, ∀ slot, read_slot h = some slot →
      ∀ seq, (slot, seq) ∈ s'.checkpoints ↔ (slot, seq) ∈ s.checkpoints) :
    s'.resume_point group = s.resume_point group := by
  apply Option.ext
  intro m
  rw [hkeyed.resume_point_eq_some_iff, hkeyed.resume_point_eq_some_iff]
  apply and_congr
  · apply forall₃_congr
    intro h hh hmode
    apply exists_congr
    intro slot
    apply and_congr_right
    intro hslot
    simp only [hsame h hh slot hslot]
  · apply exists_congr
    intro h
    apply and_congr_right
    intro hh
    apply exists_congr
    intro slot
    apply and_congr_right
    intro hslot
    simp only [hsame h hh slot hslot]

end GroupTask.Keyed

namespace Sound

/-- The store holds what the dispatches that have made their checkpoint call
have recorded under their slots. -/
theorem mem_checkpoints_iff {Value Actor Valence : Type} {self : Executor Value Actor Valence}
    {s : State Value Valence} (hsound : Sound self s) {slot : Slot} {seq : Int} :
    (slot, seq) ∈ s.checkpoints ↔
      ∃ task ∈ s.tasks, task.args.slot = some slot ∧ task.args.ev.seq = seq ∧ task.pc.recorded = true := by
  obtain ⟨name, topic_name, topic_key⟩ := slot
  rw [executor.mem_checkpoints_iff]
  constructor
  · rintro ⟨i, hmem⟩
    obtain ⟨task, htask, hrecorded, hdurable, hname, htopic, hkey, hseq⟩ := hsound.coalescer_record_mem hmem
    refine ⟨task, List.mem_of_getElem? htask, ?_, hseq.symm, hrecorded⟩
    exact DispatchArgs.slot_eq_some_iff.mpr ⟨hdurable, hname, htopic.symm, hkey.symm⟩
  · rintro ⟨task, hmem, hslot, rfl, hrecorded⟩
    obtain ⟨hdurable, hname, rfl, rfl⟩ := DispatchArgs.slot_eq_some_iff.mp hslot
    obtain ⟨i, htask⟩ := List.mem_iff_getElem?.mp hmem
    exact ⟨i, hsound.coalescer_record_of_past htask hrecorded hdurable hname⟩

theorem keyed {Value Actor Valence : Type} {self : Executor Value Actor Valence}
    {s : State Value Valence} (hsound : Sound self s) {group : GroupTask Value} (hgroup : group ∈ s.groups) :
    group.Keyed :=
  fun _ hh => hsound.topicKey_eq hgroup hh

end Sound

end photon_valence_identity.executor
