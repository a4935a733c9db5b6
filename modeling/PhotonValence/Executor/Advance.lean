import PhotonValence.Executor.Continue
import PhotonValence.Executor.Inventory
import PhotonValence.Executor.Order
import PhotonValence.Transition.Guard

open photon_backend valence transition slots

namespace photon_valence_identity.executor

/-- Two dispatches of one handler of one group. -/
def Spawn.SameHandler {Value : Type} (first second : Spawn Value) : Prop :=
  first.group = second.group ∧ first.entry = second.entry

/-- The subscription of handler `k` of group `g` has not advanced past an event
the handler could not process: a stream resumed at any of its checkpoints
delivers the event. -/
def NeverPastFailure {Value Valence : Type} (g k : Nat) (s : State Value Valence) : Prop :=
  ∀ (i j : Nat) (task failed : DispatchTask Value Valence) (name topic_name : String)
    (topic_key : Option String) (seq : Int),
    (i, .coalescer_record name topic_name topic_key seq) ∈ s.trace → s.tasks[i]? = some task →
      task.group = g → task.entry = k → s.tasks[j]? = some failed → task.SameHandler failed.toSpawn →
      failed.pc.failed = true → delivers_retained (some seq) failed.args.ev

/-- The events pulled for a group all carry the topic key of the first. -/
def SameKey {Value Valence : Type} (s : State Value Valence) : Action Value → Prop
  | .group g (.next (some (.ok ev))) =>
    ∀ group ∈ s.groups[g]?, ∀ earlier ∈ group.pulled, earlier.topic_key = ev.topic_key
  | _ => True

instance {Value Valence : Type} (s : State Value Valence) (action : Action Value) :
    Decidable (SameKey s action) :=
  match action with
  | .group g (.next (some (.ok ev))) =>
    inferInstanceAs (Decidable (∀ group ∈ s.groups[g]?, ∀ earlier ∈ group.pulled, earlier.topic_key = ev.topic_key))
  | .group _ (.next none) | .group _ (.next (some (.error _))) => instDecidableTrue
  | .group _ (.lookup _) | .group _ .subscribe | .group _ .spawn => instDecidableTrue
  | .spawn_group | .dispatch _ _ | .abort | .cancel _ => instDecidableTrue

/-- Streams whose events have increasing seq and equal topic key. -/
def KeyedStream {Value Valence : Type} (s : State Value Valence) (action : Action Value) : Prop :=
  Increasing s action ∧ SameKey s action

instance {Value Valence : Type} (s : State Value Valence) (action : Action Value) :
    Decidable (KeyedStream s action) :=
  instDecidableAnd

/-- The outcome of a turn is a failure: the actor JSON has the wrong shape, the
factory refuses it, or the handler returns an error. -/
def FailingTurn {Value Actor Valence : Type} (env : DispatchEnv Value Actor Valence)
    (args : DispatchArgs Value) : Turn → Prop
  | .gate => ∃ e, env.codec.from_value args.ev.actor_json = .error e
  | .build => ∃ e, env.valence_factory.build args.ev.actor_json = .error e
  | .returned (.Err _) => True
  | _ => False

/-- A durable named handler succeeds on no event at or past one it fails on:
neither an Ok after a failure further down the stream nor a failure after an
Ok further up. -/
def FailuresLast {Value Actor Valence : Type} (self : Executor Value Actor Valence)
    (s : State Value Valence) : Action Value → Prop
  | .dispatch i turn =>
    ∀ task ∈ s.tasks[i]?, task.args.is_durable = true → task.args.subscription_name ≠ none →
      (turn = .returned .Ok → ∀ (j : Nat) (other : DispatchTask Value Valence), s.tasks[j]? = some other →
        task.SameHandler other.toSpawn → other.pc.failed = true → task.args.ev.seq < other.args.ev.seq) ∧
      (FailingTurn self.toDispatchEnv task.args turn → ∀ (j : Nat) (other : DispatchTask Value Valence),
        s.tasks[j]? = some other → other.SameHandler task.toSpawn → other.pc.returned_ok = true →
        other.args.ev.seq < task.args.ev.seq)
  | _ => True

/-- What handler `k` of group `g`, if it is durable and named, has succeeded on
lies before what it has failed on. -/
def State.FailuresAhead {Value Valence : Type} (s : State Value Valence) (g k : Nat) : Prop :=
  ∀ (i j : Nat) (task failed : DispatchTask Value Valence), s.tasks[i]? = some task → task.group = g →
    task.entry = k → s.tasks[j]? = some failed → task.SameHandler failed.toSpawn → task.args.is_durable = true →
    task.args.subscription_name ≠ none → task.pc.returned_ok = true → failed.pc.failed = true →
    task.args.ev.seq < failed.args.ev.seq

/-- A dispatch fails by a failing turn. -/
theorem Moves.failed_of_failing {Value Actor Valence : Type} {env : DispatchEnv Value Actor Valence}
    {args : DispatchArgs Value} {pc pc' : Pc Valence} {turn : Turn} {effects : List (Effect Value Valence)}
    (hmoves : Moves env args pc turn pc' effects) (hfailing : FailingTurn env args turn) :
    pc'.failed = true ∧ pc.returned_ok = false := by
  cases hmoves with
  | refuse | no_session | err => exact ⟨rfl, rfl⟩
  | pass hshape =>
    obtain ⟨e, he⟩ := hfailing
    rw [hshape] at he
    cases he
  | session hbuild =>
    obtain ⟨e, he⟩ := hfailing
    rw [hbuild] at he
    cases he
  | _ => exact hfailing.elim

/-- A dispatch has failed by a failing turn, or had failed before. -/
theorem Executor.Transition.failed_origin {Value Actor Valence : Type}
    {self : Executor Value Actor Valence} {s s' : State Value Valence} {action : Action Value}
    (htransition : self.Transition s action s') {i : Nat} {task' : DispatchTask Value Valence}
    (htask' : s'.tasks[i]? = some task') (hfailed : task'.pc.failed = true) :
    ∃ task, s.tasks[i]? = some task ∧ task'.toSpawn = task.toSpawn ∧
      (task.pc.failed = true ∨
        ∃ turn, action = .dispatch i turn ∧ FailingTurn self.toDispatchEnv task.args turn) := by
  obtain ⟨task, htask, hspawn, hturn⟩ | hfresh := htransition.task_origin htask'
  · refine ⟨task, htask, hspawn, ?_⟩
    obtain hstays | ⟨turn, effects, rfl, hmoves⟩ := hturn
    · rw [hstays] at hfailed
      exact .inl hfailed
    · generalize task.pc = pc, task'.pc = pc' at hmoves hfailed
      cases hmoves with
      | refuse hshape => exact .inr ⟨_, rfl, _, hshape⟩
      | no_session hbuild => exact .inr ⟨_, rfl, _, hbuild⟩
      | err => exact .inr ⟨_, rfl, trivial⟩
      | dlq_record => exact .inl rfl
      | _ => cases hfailed
  · rw [hfresh] at hfailed
    cases hfailed

namespace Sound

/-- The dispatches of one handler agree on its mode and name. -/
theorem same_descriptor {Value Actor Valence : Type} {self : Executor Value Actor Valence}
    {s : State Value Valence} (hsound : Sound self s) {i j : Nat} {first second : DispatchTask Value Valence}
    (hfirst : s.tasks[i]? = some first) (hsecond : s.tasks[j]? = some second)
    (hsame : first.SameHandler second.toSpawn) :
    first.args.is_durable = second.args.is_durable ∧
      first.args.subscription_name = second.args.subscription_name := by
  obtain ⟨descriptor, ⟨group, hgroup, hentry, _⟩, hargs⟩ := hsound.takes_of_getElem? hfirst
  obtain ⟨descriptor', ⟨group', hgroup', hentry', _⟩, hargs'⟩ := hsound.takes_of_getElem? hsecond
  rw [← hsame.1] at hgroup'
  rw [← hsame.2] at hentry'
  cases Option.some.inj (hgroup.symm.trans hgroup')
  cases Option.some.inj (hentry.symm.trans hentry')
  rw [hargs, hargs']
  exact ⟨rfl, rfl⟩

end Sound

theorem Executor.Transition.failures_ahead {Value Actor Valence : Type} {self : Executor Value Actor Valence}
    {s s' : State Value Valence} {action : Action Value} (hsound : Sound self s)
    (htransition : self.Transition s action s') {g k : Nat} (hguard : OfHandler g k (FailuresLast self) s action)
    (hlast : s.FailuresAhead g k) : s'.FailuresAhead g k := by
  intro i j task' failed' htask' howner hplace hfailed' hsame hdurable hname hreturned hfailure
  obtain ⟨task, htask, hspawn, hok⟩ := htransition.returned_ok_origin htask' hreturned
  obtain ⟨failed, hfailed, hspawn', herr⟩ := htransition.failed_origin hfailed' hfailure
  rw [hspawn] at howner hplace hsame hdurable hname ⊢
  rw [hspawn'] at hsame ⊢
  obtain ⟨hdurable', hname'⟩ := hsound.same_descriptor htask hfailed hsame
  obtain hok | rfl := hok
  · obtain herr | ⟨turn, rfl, hfailing⟩ := herr
    · exact hlast i j task failed htask howner hplace hfailed hsame hdurable hname hok herr
    · rw [hdurable'] at hdurable
      rw [hname'] at hname
      have hmine := hguard failed hfailed (hsame.1.symm.trans howner) (hsame.2.symm.trans hplace)
      exact (hmine failed hfailed hdurable hname).2 hfailing i task htask hsame hok
  · obtain herr | ⟨turn, haction, hfailing⟩ := herr
    · exact (hguard task htask howner hplace task htask hdurable hname).1 rfl j failed hfailed hsame herr
    · cases haction
      exact hfailing.elim

theorem Executor.Reachable.failures_ahead {Value Actor Valence : Type} {self : Executor Value Actor Valence}
    {ok : State Value Valence → Action Value → Prop} {s : State Value Valence} {g k : Nat}
    (hreachable : self.Reachable ok s)
    (hguard : ∀ state action, ok state action → OfHandler g k (FailuresLast self) state action) :
    s.FailuresAhead g k := by
  apply Steps.invariant_along hreachable
  · intro before action after hbefore hahead hok hstep
    exact (transition_of_step hstep).failures_ahead (Reachable.sound hbefore) (hguard before action hok) hahead
  · simp [State.FailuresAhead, start]

/-- A durable named handler that has succeeded at or past one of its failures
can go on to a checkpoint there. -/
theorem Sound.can_pass_failure {Value Actor Valence : Type} {self : Executor Value Actor Valence}
    {ok : State Value Valence → Action Value → Prop} {s : State Value Valence} {i j : Nat}
    {task failed : DispatchTask Value Valence} {name : String} (hsound : Sound self s)
    (hok : ∀ state i turn, ok state (.dispatch i turn)) (htask : s.tasks[i]? = some task) {g k : Nat}
    (howner : task.group = g) (hplace : task.entry = k) (hfailed : s.tasks[j]? = some failed)
    (hsame : task.SameHandler failed.toSpawn)
    (hreturned : task.pc.returned_ok = true) (hfailure : failed.pc.failed = true)
    (hdurable : task.args.is_durable = true) (hname : task.args.subscription_name = some name)
    (hbehind : ¬ task.args.ev.seq < failed.args.ev.seq) :
    ∃ finish, Steps self.step ok s finish ∧ ¬ NeverPastFailure g k finish := by
  have helsewhere : failed.pc ≠ task.pc := by
    intro hpcs
    rw [hpcs] at hfailure
    cases hpc : task.pc <;> simp [hpc, Pc.returned_ok, Pc.failed] at hreturned hfailure
  obtain ⟨finish, hrun, honly, hrecord⟩ := hsound.can_record hok htask hreturned hdurable hname
  obtain ⟨_, hrecorder⟩ := honly.mover _ htask
  have hfailed' : finish.tasks[j]? = some failed := honly.stays htask hfailed helsewhere
  refine ⟨finish, hrun, fun hnever => ?_⟩
  have hdelivers := hnever i j _ failed _ _ _ _ hrecord hrecorder howner hplace hfailed' hsame hfailure
  rw [delivers_retained_some] at hdelivers
  exact hbehind hdelivers

/-- A durable subscription stays behind its failures exactly as long as its
handler's failures come last in the stream: a failed dispatch holds nothing
back but its own checkpoint. Only the stream of the handler's own group has to
be increasing and of one key. -/
theorem never_past_failure_exactly {Value Actor Valence : Type} (self : Executor Value Actor Valence) (g k : Nat) :
    ExactGuard self.step (OfGroup g KeyedStream) (OfHandler g k (FailuresLast self)) self.start
      (NeverPastFailure g k) where
  keeps s hrun i j task failed name topic_name topic_key seq hrecord htask howner hplace hfailed hsame hfailure := by
    have hreachable : self.Reachable (fun state action =>
      OfGroup g KeyedStream state action ∧ OfHandler g k (FailuresLast self) state action) s := hrun
    obtain ⟨caller, hcaller, hpc, hdurable, hname, _, _, hseq⟩ :=
      hreachable.sound.coalescer_record_mem hrecord
    cases Option.some.inj (htask.symm.trans hcaller)
    have hreturned := Pc.returned_ok_of_recorded hpc
    rw [delivers_retained_some, hseq]
    exact hreachable.failures_ahead (fun _ _ hok => hok.2) i j task failed htask howner hplace hfailed hsame hdurable
      (by simp [hname]) hreturned hfailure
  needed before action after hrun hstream hviolates hstep := by
    have hreachable : self.Reachable (OfGroup g KeyedStream) before := hrun
    have hadmits : ∀ (state : State Value Valence) i turn, OfGroup g KeyedStream state (.dispatch i turn) :=
      ofGroup_dispatch g KeyedStream
    unfold OfHandler at hviolates
    split at hviolates
    · rename_i i turn
      simp only [Option.mem_def, not_forall] at hviolates
      obtain ⟨task, htask, rfl, rfl, hviolates⟩ := hviolates
      simp only [FailuresLast, Option.mem_def, not_forall] at hviolates
      obtain ⟨owner, howner, hdurable, hname, hviolates⟩ := hviolates
      cases Option.some.inj (htask.symm.trans howner)
      obtain ⟨name, hname⟩ := Option.ne_none_iff_exists'.mp hname
      obtain ⟨mover, pc', _, hmover, hmoves, hafter, _, honly⟩ := Executor.step_dispatch_cases hstep
      cases Option.some.inj (htask.symm.trans hmover)
      have hsound' : Sound self after := Executor.sound_step hreachable.sound hstep
      obtain hviolates | hviolates := not_and_or.mp hviolates
      -- the handler returns Ok past a failure
      · simp only [not_forall] at hviolates
        obtain ⟨rfl, j, other, hother, hsame, hfailed, hbehind⟩ := hviolates
        obtain ⟨hreturned, hfresh⟩ := hmoves.returned_ok_of_returned
        have helsewhere : other.pc ≠ task.pc := by
          intro hpcs
          rw [hpcs, hfresh] at hfailed
          cases hfailed
        have hother' : after.tasks[j]? = some other := honly.stays htask hother helsewhere
        exact hsound'.can_pass_failure hadmits hafter rfl rfl hother' hsame hreturned hfailed hdurable hname hbehind
      -- the handler fails before one of its successes
      · simp only [not_forall] at hviolates
        obtain ⟨hfailing, j, other, hother, hsame, hreturned, hbehind⟩ := hviolates
        obtain ⟨hfailed, hfresh⟩ := hmoves.failed_of_failing hfailing
        have helsewhere : other.pc ≠ task.pc := by
          intro hpcs
          rw [hpcs, hfresh] at hreturned
          cases hreturned
        have hother' : after.tasks[j]? = some other := honly.stays htask hother helsewhere
        obtain ⟨hdurable', hname'⟩ := hreachable.sound.same_descriptor hother htask hsame
        exact hsound'.can_pass_failure hadmits hother' hsame.1 hsame.2 hafter hsame hreturned hfailed
          (hdurable'.trans hdurable) (hname'.trans hname) hbehind
    · exact absurd trivial hviolates

/-- A run in which the handler fails on the first of two events and succeeds on
the second, one after the other. -/
def failing_then_succeeding : List (Action ActorJson) :=
  [.spawn_group, .group 0 (.lookup (.ok none)), .group 0 .subscribe,
    .group 0 (.next (some (.ok (orders_event none 1)))), .group 0 .spawn, .group 0 .spawn,
    .dispatch 0 .acquire, .dispatch 0 .gate, .dispatch 0 .build, .dispatch 0 .invoke,
    .dispatch 0 (.returned (.Err "out of stock")), .dispatch 0 (.dlq_record true),
    .group 0 (.next (some (.ok (orders_event none 2)))), .group 0 .spawn, .group 0 .spawn,
    .dispatch 1 .acquire, .dispatch 1 .gate, .dispatch 1 .build, .dispatch 1 .invoke,
    .dispatch 1 (.returned .Ok), .dispatch 1 .coalescer_record]

def advanced : State ActorJson Actor :=
  (execute billing_executor.step billing_executor.start failing_then_succeeding).get rfl

theorem advanced_past_failure :
    billing_executor.Reachable (OfGroup 0 KeyedStream) advanced ∧ ¬ NeverPastFailure 0 0 advanced := by
  have hreachable : billing_executor.Reachable (OfGroup 0 KeyedStream) advanced :=
    execute_steps failing_then_succeeding (by decide) (Option.some_get _).symm
  have hfailed : advanced.tasks[0]? = some ⟨⟨0, 0, 0,
    dispatch_args (orders_handler (some "billing") none .Durable 0) (orders_event none 1)⟩,
    .dead_lettered .HandlerError true⟩ := rfl
  have hrecord : advanced.trace[7]? = some (1, .coalescer_record "billing" "orders" none 2) := rfl
  refine ⟨hreachable, fun hnever => ?_⟩
  have hdelivers := hnever 1 0 _ _ _ _ _ _ (List.mem_of_getElem? hrecord) rfl rfl rfl hfailed ⟨rfl, rfl⟩ rfl
  rw [delivers_retained_some] at hdelivers
  exact absurd hdelivers (by decide)

end photon_valence_identity.executor
