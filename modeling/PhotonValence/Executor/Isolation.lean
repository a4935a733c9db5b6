import PhotonValence.Executor.Continue
import PhotonValence.Executor.Inventory
import PhotonValence.Executor.Store

open photon_backend valence transition slots

namespace photon_valence_identity.executor

/-- The state as if one dispatch had had no effects. -/
def State.without {Value Valence : Type} (s : State Value Valence) (i : Nat) : State Value Valence :=
  { s with trace := s.trace.filter fun entry => entry.1 ≠ i }

/-- A dispatch of the event to handler `k` of group `g` has returned Ok or put
the event in the DLQ. -/
def State.SettledFor {Value Valence : Type} (s : State Value Valence) (g k : Nat) (ev : Event Value) : Prop :=
  ∃ task ∈ s.tasks, task.group = g ∧ task.entry = k ∧ task.args.ev = ev ∧ task.pc.settled = true

/-- Durable handlers are isolated from each other: where the resume point of a
group owes something to a successful dispatch of another handler, it lies
before every published event that a handler of the group takes and has not
settled. -/
def Isolated {Value Valence : Type} (published : Event Value → Prop) (s : State Value Valence) : Prop :=
  ∀ (i : Nat) (task : DispatchTask Value Valence) (g k : Nat) (group : GroupTask Value)
    (h : HandlerDescriptor) (p : Int), s.tasks[i]? = some task → task.args.slot ≠ none →
    task.pc.returned_ok = true → s.groups[g]? = some group → group.handlers[k]? = some h →
    read_slot h ≠ none → ¬ (task.group = g ∧ task.entry = k) → s.resume_point group = some p →
    (∀ q, (s.without i).resume_point group = some q → q < p) →
    ∀ ev, published ev → h.matches_event ev.topic_name ev.topic_key = true → ¬ s.SettledFor g k ev →
      p < ev.seq

/-- Handler `k` of the group that is spawned as number `g`. -/
def Executor.handler_at {Value Actor Valence : Type} (self : Executor Value Actor Valence) (g k : Nat) :
    Option HandlerDescriptor :=
  self.keys[g]?.bind fun key => (self.registry.handlers_for_topic_key key.1 key.2)[k]?

/-- The successes of a handler may be recorded in the slot: its events carry
the key of the slot, or its group is not filtered. -/
def MayRecord (h : HandlerDescriptor) (slot : Slot) : Prop :=
  h.mode = .Durable ∧ h.subscription_name = some slot.1 ∧ h.topic_name = slot.2.1 ∧
    (h.topic_key_filter = none ∨ h.topic_key_filter = slot.2.2)

/-- The group of the handler can resume from checkpoints, and another durable
named handler may record in one of the slots it looks up. -/
structure Exposed {Value Actor Valence : Type} (executor : Executor Value Actor Valence) (g k : Nat) :
    Prop where
  named : ∀ (k' : Nat) (reader : HandlerDescriptor), executor.handler_at g k' = some reader →
    reader.mode = .Durable → reader.subscription_name ≠ none
  rival : ∃ (g' k' k'' : Nat) (other reader : HandlerDescriptor) (slot : Slot), ¬ (g' = g ∧ k' = k) ∧
    executor.handler_at g' k' = some other ∧ executor.handler_at g k'' = some reader ∧
    read_slot reader = some slot ∧ MayRecord other slot

/-- A durable named handler returns Ok for an event only when the exposed
handlers that look up the slot it is recorded in have settled what they take
of the other events up to it. -/
def ReturnsSettled {Value Actor Valence : Type} (self : Executor Value Actor Valence)
    (published : Event Value → Prop) (s : State Value Valence) : Action Value → Prop
  | .dispatch i (.returned .Ok) =>
    ∀ task ∈ s.tasks[i]?, ∀ slot, task.args.slot = some slot →
      ∀ g k h, Exposed self g k → self.handler_at g k = some h → read_slot h = some slot →
        ∀ ev, published ev → h.matches_event ev.topic_name ev.topic_key = true →
          ev.seq ≤ task.args.ev.seq → ¬ (task.group = g ∧ task.entry = k ∧ task.args.ev = ev) →
          s.SettledFor g k ev
  | _ => True

/-- The exposed handlers have settled what they take of the events up to every
success under their slot. -/
def State.SettledBehind {Value Actor Valence : Type} (s : State Value Valence)
    (self : Executor Value Actor Valence) (published : Event Value → Prop) : Prop :=
  ∀ (i : Nat) (task : DispatchTask Value Valence) (slot : Slot), s.tasks[i]? = some task →
    task.args.slot = some slot → task.pc.returned_ok = true →
    ∀ g k h, Exposed self g k → self.handler_at g k = some h → read_slot h = some slot →
      ∀ ev, published ev → h.matches_event ev.topic_name ev.topic_key = true →
        ev.seq ≤ task.args.ev.seq → s.SettledFor g k ev

/-- What a handler has settled stays settled. -/
theorem Executor.Transition.settled_for {Value Actor Valence : Type} {self : Executor Value Actor Valence}
    {s s' : State Value Valence} {action : Action Value} (htransition : self.Transition s action s')
    {g k : Nat} {ev : Event Value} (hsettled : s.SettledFor g k ev) : s'.SettledFor g k ev := by
  obtain ⟨task, htask, hgroup, hentry, hev, hpc⟩ := hsettled
  obtain ⟨pc', htask', hpc'⟩ := htransition.settled_task htask hpc
  exact ⟨_, htask', hgroup, hentry, hev, hpc'⟩

namespace Sound

/-- The handlers of a running group are those of the registry. -/
theorem handler_at_eq {Value Actor Valence : Type} {self : Executor Value Actor Valence}
    {s : State Value Valence} (hsound : Sound self s) {g : Nat} {group : GroupTask Value}
    (hgroup : s.groups[g]? = some group) (k : Nat) : self.handler_at g k = group.handlers[k]? := by
  have hkey : self.keys[g]? = some group.key := by
    rw [← hsound.keys_eq]
    apply getElem?_append_of_some
    rw [List.getElem?_map, hgroup]
    rfl
  rw [Executor.handler_at, hkey, hsound.handlers_eq group (List.mem_of_getElem? hgroup)]
  rfl

/-- A dispatch records under a slot its handler may record in. -/
theorem may_record {Value Actor Valence : Type} {self : Executor Value Actor Valence}
    {s : State Value Valence} (hsound : Sound self s) {i : Nat} {task : DispatchTask Value Valence}
    {slot : Slot} (htask : s.tasks[i]? = some task) (hslot : task.args.slot = some slot) :
    ∃ h, self.handler_at task.group task.entry = some h ∧ MayRecord h slot := by
  obtain ⟨name, topic_name, topic_key⟩ := slot
  obtain ⟨hdurable, hname, htopic, hkey⟩ := DispatchArgs.slot_eq_some_iff.mp hslot
  obtain ⟨h, ⟨group, hgroup, hentry, _, hmatches⟩, hargs⟩ := hsound.takes_of_getElem? htask
  rw [HandlerDescriptor.matches_event_iff] at hmatches
  rw [hargs] at hdurable hname htopic
  refine ⟨h, (hsound.handler_at_eq hgroup _).trans hentry, of_decide_eq_true hdurable, hname, ?_, ?_⟩
  · exact hmatches.1.trans htopic
  · rw [hkey] at hmatches
    exact hmatches.2

/-- A dispatch has recorded nothing under a slot that is not its own. -/
theorem mem_checkpoints_without_iff {Value Actor Valence : Type} {self : Executor Value Actor Valence}
    {s : State Value Valence} (hsound : Sound self s) {i : Nat} {task : DispatchTask Value Valence}
    {slot : Slot} {seq : Int} (htask : s.tasks[i]? = some task) (hother : task.args.slot ≠ some slot) :
    (slot, seq) ∈ (s.without i).checkpoints ↔ (slot, seq) ∈ s.checkpoints := by
  obtain ⟨name, topic_name, topic_key⟩ := slot
  rw [executor.mem_checkpoints_iff, executor.mem_checkpoints_iff]
  constructor
  · rintro ⟨j, hmem⟩
    exact ⟨j, (List.mem_filter.mp hmem).1⟩
  · rintro ⟨j, hmem⟩
    have hne : j ≠ i := by
      rintro rfl
      obtain ⟨mover, hmover, _, hdurable, hname, htopic, hkey, _⟩ := hsound.coalescer_record_mem hmem
      cases Option.some.inj (htask.symm.trans hmover)
      apply hother
      exact DispatchArgs.slot_eq_some_iff.mpr ⟨hdurable, hname, htopic.symm, hkey.symm⟩
    exact ⟨j, List.mem_filter.mpr ⟨hmem, by simpa using hne⟩⟩

/-- A dispatch that a resume point owes something to records in one of the
slots the group looks up. -/
theorem recorded_of_owed {Value Actor Valence : Type} {self : Executor Value Actor Valence}
    {s : State Value Valence} (hsound : Sound self s) {i : Nat} {task : DispatchTask Value Valence}
    {group : GroupTask Value} {p : Int} (htask : s.tasks[i]? = some task) (hgroup : group ∈ s.groups)
    (hresumes : s.resume_point group = some p)
    (howed : ∀ q, (s.without i).resume_point group = some q → q < p) :
    ∃ reader ∈ group.handlers, ∃ slot, read_slot reader = some slot ∧ task.args.slot = some slot := by
  by_contra hnone
  have hsame : (s.without i).resume_point group = s.resume_point group := by
    apply (hsound.keyed hgroup).resume_point_congr
    intro reader hreader slot hslot seq
    apply hsound.mem_checkpoints_without_iff htask
    intro hwrites
    exact hnone ⟨reader, hreader, slot, hslot, hwrites⟩
  have hless := howed p (hsame.trans hresumes)
  omega

/-- What the resume point of a group owes something to comes from a rival of
each of its other durable handlers. -/
theorem exposed_of_owed {Value Actor Valence : Type} {self : Executor Value Actor Valence}
    {s : State Value Valence} (hsound : Sound self s) {i g k : Nat} {task : DispatchTask Value Valence}
    {group : GroupTask Value} {p : Int} (htask : s.tasks[i]? = some task)
    (hgroup : s.groups[g]? = some group) (hother : ¬ (task.group = g ∧ task.entry = k))
    (hresumes : s.resume_point group = some p)
    (howed : ∀ q, (s.without i).resume_point group = some q → q < p) : Exposed self g k := by
  have hmember := List.mem_of_getElem? hgroup
  constructor
  · intro k' reader hreader hmode hunnamed
    rw [hsound.handler_at_eq hgroup] at hreader
    obtain ⟨hall, _⟩ := (hsound.keyed hmember).resume_point_eq_some_iff.mp hresumes
    obtain ⟨slot, hslot, _⟩ := hall reader (List.mem_of_getElem? hreader) hmode
    obtain ⟨_, hname, _⟩ := read_slot_eq_some_iff.mp hslot
    rw [hunnamed] at hname
    cases hname
  · obtain ⟨reader, hreader, slot, hread, hslot⟩ := hsound.recorded_of_owed htask hmember hresumes howed
    obtain ⟨k'', hk⟩ := List.mem_iff_getElem?.mp hreader
    obtain ⟨other, hat, hrecord⟩ := hsound.may_record htask hslot
    have hlooks : self.handler_at g k'' = some reader := (hsound.handler_at_eq hgroup k'').trans hk
    exact ⟨_, _, k'', other, reader, slot, hother, hat, hlooks, hread, hrecord⟩

/-- Handlers that have settled what lies behind the successes under their slots
are isolated. -/
theorem isolated {Value Actor Valence : Type} {self : Executor Value Actor Valence}
    {s : State Value Valence} {published : Event Value → Prop} (hsound : Sound self s)
    (hbehind : s.SettledBehind self published) : Isolated published s := by
  intro i task g k group h p htask _ _ hgroup hentry hnamed hother hresumes howed ev hpublished hmatches hunsettled
  have hmember := List.mem_of_getElem? hgroup
  obtain ⟨slot, hslot⟩ := Option.ne_none_iff_exists'.mp hnamed
  obtain ⟨hall, _⟩ := (hsound.keyed hmember).resume_point_eq_some_iff.mp hresumes
  have hmode : h.mode = .Durable := (read_slot_eq_some_iff.mp hslot).1
  obtain ⟨slot', hslot', seq, hrecorded, hle⟩ := hall h (List.mem_of_getElem? hentry) hmode
  cases Option.some.inj (hslot.symm.trans hslot')
  obtain ⟨writer, hwriter, hwrites, rfl, hpc⟩ := hsound.mem_checkpoints_iff.mp hrecorded
  obtain ⟨j, hj⟩ := List.mem_iff_getElem?.mp hwriter
  by_contra hpast
  apply hunsettled
  refine hbehind j writer slot hj hwrites (Pc.returned_ok_of_recorded hpc) g k h ?_ ?_ hslot ev hpublished
    hmatches (by omega)
  · exact hsound.exposed_of_owed htask hgroup hother hresumes howed
  · rw [hsound.handler_at_eq hgroup, hentry]

end Sound

theorem Executor.Transition.settled_behind {Value Actor Valence : Type} {self : Executor Value Actor Valence}
    {s s' : State Value Valence} {action : Action Value} {published : Event Value → Prop}
    (htransition : self.Transition s action s') (hreturns : ReturnsSettled self published s action)
    (hbehind : s.SettledBehind self published) : s'.SettledBehind self published := by
  intro i task' slot htask' hslot hreturned g k h hexposed hat hread ev hpublished hmatches hle
  obtain ⟨task, htask, hspawn, hold | hnow⟩ := htransition.returned_ok_origin htask' hreturned
  · rw [hspawn] at hslot hle
    exact htransition.settled_for
      (hbehind i task slot htask hslot hold g k h hexposed hat hread ev hpublished hmatches hle)
  · subst hnow
    by_cases hown : task'.group = g ∧ task'.entry = k ∧ task'.args.ev = ev
    · obtain ⟨hgroup, hentry, hev⟩ := hown
      exact ⟨task', List.mem_of_getElem? htask', hgroup, hentry, hev, Pc.settled_of_returned_ok hreturned⟩
    · rw [hspawn] at hslot hle hown
      exact htransition.settled_for
        (hreturns task htask slot hslot g k h hexposed hat hread ev hpublished hmatches hle hown)

/-- In every state of a run in which durable handlers return Ok only behind
what the exposed handlers of their slots have settled, durable handlers are
isolated from each other. -/
theorem isolated_of_returns_settled {Value Actor Valence : Type} {self : Executor Value Actor Valence}
    {published : Event Value → Prop} {s : State Value Valence}
    (hreachable : self.Reachable (ReturnsSettled self published) s) : Isolated published s := by
  have hbehind : s.SettledBehind self published := by
    apply Steps.invariant hreachable
    · intro before action after hbefore hok hstep
      exact (Executor.transition_of_step hstep).settled_behind hok hbefore
    · intro i task slot htask
      simp [Executor.start] at htask
  exact hreachable.sound.isolated hbehind

/-- Two durable handlers of one group, with the names they are registered
under. -/
def pair_executor (first second : String) : Executor ActorJson Actor Actor :=
  Executor.of_inventory open_env
    [orders_handler (some first) none .Durable 0, orders_handler (some second) none .Durable 1] 2

/-- An event is dispatched to both handlers, and that of the first gets as far
as its handler. -/
def first_of_pair : List (Action ActorJson) :=
  [.spawn_group, .group 0 (.lookup (.ok none)), .group 0 (.lookup (.ok none)), .group 0 .subscribe,
    .group 0 (.next (some (.ok (orders_event none 1)))), .group 0 .spawn, .group 0 .spawn, .group 0 .spawn,
    .dispatch 0 .acquire, .dispatch 0 .gate, .dispatch 0 .build, .dispatch 0 .invoke]

/-- The first handler has returned Ok; then the second is run. -/
def second_of_pair : List (Action ActorJson) :=
  [.dispatch 0 .coalescer_record, .dispatch 1 .acquire, .dispatch 1 .gate, .dispatch 1 .build,
    .dispatch 1 .invoke]

def twins : Executor ActorJson Actor Actor := pair_executor "billing" "billing"

def twin_ahead : State ActorJson Actor :=
  (execute twins.step twins.start
    (first_of_pair ++ [.dispatch 0 (.returned .Ok), .dispatch 0 .coalescer_record])).get rfl

theorem twin_not_isolated :
    twins.Reachable anyStep twin_ahead ∧ ¬ Isolated (· = orders_event none 1) twin_ahead := by
  refine ⟨execute_anyStep _ (Option.some_get _).symm, fun hisolated => ?_⟩
  have hunsettled : ¬ twin_ahead.SettledFor 0 1 (orders_event none 1) := by
    rintro ⟨task, htask, _, hentry, _, hsettled⟩
    have hnone : ∀ task ∈ twin_ahead.tasks, task.entry = 1 → task.pc.settled = false := by decide
    rw [hnone task htask hentry] at hsettled
    cases hsettled
  have hless := hisolated 0 _ 0 1 _ (orders_handler (some "billing") none .Durable 1) 1 rfl (by decide) rfl rfl
    rfl (by decide) (by decide) rfl (fun q hq => by cases hq) _ rfl (by decide) hunsettled
  exact absurd hless (by decide)

def pair : Executor ActorJson Actor Actor := pair_executor "billing" "audit"

def pair_running : State ActorJson Actor := (execute pair.step pair.start first_of_pair).get rfl

def pair_returned : State ActorJson Actor := (pair.step pair_running (.dispatch 0 (.returned .Ok))).get rfl

def pair_second : State ActorJson Actor := (execute pair.step pair_returned second_of_pair).get rfl

def pair_both : State ActorJson Actor := (pair.step pair_second (.dispatch 1 (.returned .Ok))).get rfl

def pair_done : State ActorJson Actor := (pair.step pair_both (.dispatch 1 .coalescer_record)).get rfl

theorem pair_handler_at {g k : Nat} {h : HandlerDescriptor} (hat : pair.handler_at g k = some h) :
    g = 0 ∧ (k = 0 ∧ h.subscription_name = some "billing" ∨ k = 1 ∧ h.subscription_name = some "audit") := by
  match g, k with
  | 0, 0 =>
    cases hat
    exact ⟨rfl, .inl ⟨rfl, rfl⟩⟩
  | 0, 1 =>
    cases hat
    exact ⟨rfl, .inr ⟨rfl, rfl⟩⟩
  | 0, k + 2 => cases hat
  | g + 1, k => cases hat

theorem pair_position_eq {g k g' k' : Nat} {h h' : HandlerDescriptor} (hat : pair.handler_at g k = some h)
    (hat' : pair.handler_at g' k' = some h') (hname : h.subscription_name = h'.subscription_name) :
    g = g' ∧ k = k' := by
  have hdistinct : (some "billing" : Option String) ≠ some "audit" := by decide
  obtain ⟨rfl, ⟨rfl, hfirst⟩ | ⟨rfl, hfirst⟩⟩ := pair_handler_at hat <;>
    obtain ⟨rfl, ⟨rfl, hsecond⟩ | ⟨rfl, hsecond⟩⟩ := pair_handler_at hat' <;> rw [hfirst, hsecond] at hname
  · exact ⟨rfl, rfl⟩
  · exact absurd hname hdistinct
  · exact absurd hname.symm hdistinct
  · exact ⟨rfl, rfl⟩

/-- The events of the pair's topic. -/
def pair_events (ev : Event ActorJson) : Prop := ev ∈ [orders_event none 1, orders_event none 2]

/-- No other handler looks up the slot that a handler of the pair writes, and
nothing is published before the first event. -/
theorem pair_returns_settled {s : State ActorJson Actor} {i : Nat} {task : DispatchTask ActorJson Actor}
    (own : HandlerDescriptor) (htask : s.tasks[i]? = some task) (hgroup : task.group = 0)
    (hown : pair.handler_at 0 task.entry = some own)
    (hargs : task.args = dispatch_args own (orders_event none 1)) :
    ReturnsSettled pair pair_events s (.dispatch i (.returned .Ok)) := by
  intro mover hmover slot hslot g k h _ hat hread ev hpublished _ hle hother
  cases Option.some.inj (htask.symm.trans hmover)
  obtain ⟨name, topic_name, topic_key⟩ := slot
  obtain ⟨_, hname, _, _⟩ := DispatchArgs.slot_eq_some_iff.mp hslot
  obtain ⟨_, hsame, _, _⟩ := read_slot_eq_some_iff.mp hread
  rw [hargs] at hname hle
  obtain ⟨hg, hk⟩ := pair_position_eq hown hat (hname.trans hsame.symm)
  obtain rfl | hlater := List.mem_cons.mp hpublished
  · exact absurd ⟨hgroup.trans hg, hk, by rw [hargs]; rfl⟩ hother
  · cases List.mem_singleton.mp hlater
    exact absurd hle (show ¬ (2 : Int) ≤ 1 by decide)

/-- With names of their own the two handlers settle an event one after the
other, and their group resumes past it only then. -/
theorem pair_isolated :
    Isolated pair_events pair_done ∧ pair_done.groups.map pair_done.resume_point = [some 1] := by
  have hreachable : pair.Reachable (ReturnsSettled pair pair_events) pair_done := by
    have hfirst : Steps pair.step (ReturnsSettled pair pair_events) pair.start pair_running :=
      execute_steps_of_forall first_of_pair (by simp [first_of_pair, ReturnsSettled]) (Option.some_get _).symm
    have hsecond : Steps pair.step (ReturnsSettled pair pair_events) pair_returned pair_second :=
      execute_steps_of_forall second_of_pair (by simp [second_of_pair, ReturnsSettled]) (Option.some_get _).symm
    have hreturns : ReturnsSettled pair pair_events pair_running (.dispatch 0 (.returned .Ok)) :=
      pair_returns_settled (orders_handler (some "billing") none .Durable 0) rfl rfl rfl rfl
    have hreturns' : ReturnsSettled pair pair_events pair_second (.dispatch 1 (.returned .Ok)) :=
      pair_returns_settled (orders_handler (some "audit") none .Durable 1) rfl rfl rfl rfl
    have hboth : Steps pair.step (ReturnsSettled pair pair_events) pair.start pair_both :=
      ((hfirst.tail hreturns (Option.some_get _).symm).trans hsecond).tail hreturns' (Option.some_get _).symm
    have hlast : pair.step pair_both (.dispatch 1 .coalescer_record) = some pair_done :=
      (Option.some_get _).symm
    refine hboth.tail ?_ hlast
    trivial
  exact ⟨isolated_of_returns_settled hreachable, rfl⟩

end photon_valence_identity.executor
