import PhotonValence.Executor.Inventory
import PhotonValence.Executor.Progress

open photon_backend valence transition slots

namespace photon_valence_identity.executor

/-- Dispatch shows in two effects: a handler is invoked, a checkpoint is
recorded. -/
def Effect.is_activity {Value Valence : Type} (effect : Effect Value Valence) : Bool :=
  effect.is_invoke || effect.is_coalescer_record

/-- The subscription task will not run again. -/
def GroupPc.is_over {Value : Type} : GroupPc Value → Bool
  | .ended | .cancelled => true
  | _ => false

/-- `start_executor` has returned its handle, the handle was aborted or
dropped, and the subscription tasks are all cancelled or were over. -/
structure Stopped {Value Valence : Type} (s : State Value Valence) : Prop where
  returned : s.unspawned = []
  aborted : s.aborted = true
  cancelled : ∀ group ∈ s.groups, group.pc.is_over = true

/-- What happened from `s` to `s'` was no activity. -/
def State.QuietTo {Value Valence : Type} (s s' : State Value Valence) : Prop :=
  ∃ later, s'.trace = s.trace ++ later ∧ ∀ entry ∈ later, entry.2.is_activity = false

/-- Dispatch has stopped: no continuation invokes a handler or records a
checkpoint. -/
def Quiet {Value Actor Valence : Type} (self : Executor Value Actor Valence)
    (s : State Value Valence) : Prop :=
  ∀ s', Steps self.step anyStep s s' → s.QuietTo s'

/-- A dispatch that can still invoke its handler or record a checkpoint. -/
def CanAct {Value Actor Valence : Type} (self : Executor Value Actor Valence) (args : DispatchArgs Value) :
    Pc Valence → Prop
  | .acquire => 0 < self.worker_pool ∧ ∃ valence, Session self.toDispatchEnv args valence
  | .gate => ∃ valence, Session self.toDispatchEnv args valence
  | .build => ∃ valence, self.valence_factory.build args.ev.actor_json = .ok valence
  | .running _ => args.is_durable = true ∧ args.subscription_name ≠ none
  | .invoke _ | .checkpoint _ => True
  | _ => False

namespace State.QuietTo

theorem of_trace_eq {Value Valence : Type} {s s' : State Value Valence} (hsame : s'.trace = s.trace) :
    s.QuietTo s' :=
  ⟨[], by rw [hsame, List.append_nil], nofun⟩

theorem trans {Value Valence : Type} {s s' s'' : State Value Valence} (hfirst : s.QuietTo s')
    (hsecond : s'.QuietTo s'') : s.QuietTo s'' := by
  obtain ⟨first, hfirst, hquiet⟩ := hfirst
  obtain ⟨second, hsecond, hquiet'⟩ := hsecond
  refine ⟨first ++ second, by rw [hsecond, hfirst, List.append_assoc], ?_⟩
  intro entry hentry
  exact (List.mem_append.mp hentry).elim (hquiet entry) (hquiet' entry)

end State.QuietTo

/-- A turn of a dispatch that cannot act is no activity, and it still cannot
act after it. -/
theorem Moves.cannot_act {Value Actor Valence : Type} {self : Executor Value Actor Valence}
    {args : DispatchArgs Value} {pc pc' : Pc Valence} {turn : Turn} {effects : List (Effect Value Valence)}
    (hmoves : Moves self.toDispatchEnv args pc turn pc' effects)
    (hpool : pc = .acquire → 0 < self.worker_pool) (hidle : ¬ CanAct self args pc) :
    (∀ effect ∈ effects, effect.is_activity = false) ∧ ¬ CanAct self args pc' := by
  cases hmoves with
  | acquire => exact ⟨by simp, fun hsession => hidle ⟨hpool rfl, hsession⟩⟩
  | refuse => exact ⟨by simp, id⟩
  | pass hshape =>
    refine ⟨by simp, ?_⟩
    rintro ⟨valence, hbuild⟩
    exact hidle ⟨valence, ⟨_, hshape⟩, hbuild⟩
  | session hbuild => exact absurd ⟨_, hbuild⟩ hidle
  | invoke | coalescer_record => exact absurd trivial hidle
  | ok_durable _ hdurable hname => exact absurd ⟨hdurable, by simp [hname]⟩ hidle
  | no_session | panic | err | ok_plain | dlq_record | drain | no_drain =>
    refine ⟨?_, id⟩
    simp [Effect.is_activity, Effect.is_invoke, Effect.is_coalescer_record]

/-- A stopped executor none of whose dispatches can act. -/
structure Idle {Value Actor Valence : Type} (executor : Executor Value Actor Valence)
    (s : State Value Valence) : Prop where
  sound : Sound executor s
  returned : s.unspawned = []
  cancelled : ∀ group ∈ s.groups, group.pc.is_over = true
  cannot_act : ∀ (i : Nat) (task : DispatchTask Value Valence), s.tasks[i]? = some task →
    ¬ CanAct executor task.args task.pc

namespace Idle

/-- An idle executor stays idle, and what it still does is no activity. -/
theorem step {Value Actor Valence : Type} {self : Executor Value Actor Valence}
    {s s' : State Value Valence} {action : Action Value} (hidle : Idle self s)
    (hstep : self.step s action = some s') :
    Idle self s' ∧ s.QuietTo s' := by
  have hsound' := Executor.sound_step hidle.sound hstep
  cases Executor.transition_of_step hstep with
  | skip_group hkeys | spawn_group hkeys =>
    rw [hidle.returned] at hkeys
    cases hkeys
  | group hgroup hmoves =>
    have hover := hidle.cancelled _ (List.mem_of_getElem? hgroup)
    cases hmoves <;> simp_all [GroupPc.is_over]
  | cancel _ hgroup hawaits =>
    have hover := hidle.cancelled _ (List.mem_of_getElem? hgroup)
    obtain hpc | hpc := hawaits <;> simp [hpc, GroupPc.is_over] at hover
  | abort =>
    exact ⟨⟨hsound', hidle.returned, hidle.cancelled, hidle.cannot_act⟩, .of_trace_eq rfl⟩
  | @dispatch i turn task pc' effects permits htask hmoves hpermits =>
    have hpool : task.pc = .acquire → 0 < self.worker_pool := by
      intro hpc
      have htaken : s.permits ≠ 0 := by
        intro hzero
        simp [hpc, permits_after, hzero] at hpermits
      have hheld := hidle.sound.permits_eq
      omega
    obtain ⟨hsilent, hafter⟩ := hmoves.cannot_act hpool (hidle.cannot_act i task htask)
    refine ⟨⟨hsound', hidle.returned, hidle.cancelled, ?_⟩, effects.map (i, ·), rfl, ?_⟩
    · intro j other hother
      obtain ⟨_, rfl⟩ | ⟨_, hold⟩ := getElem?_set_cases hother
      · exact hafter
      · exact hidle.cannot_act j other hold
    · intro entry hentry
      obtain ⟨effect, heffect, rfl⟩ := List.mem_map.mp hentry
      exact hsilent effect heffect

theorem quiet {Value Actor Valence : Type} {self : Executor Value Actor Valence}
    {s : State Value Valence} (hidle : Idle self s) : Quiet self s := by
  intro s' hrun
  have hkept : Idle self s' ∧ s.QuietTo s' := by
    apply hrun.invariant
    · rintro before action after ⟨hbefore, hquiet⟩ _ hstep
      obtain ⟨hafter, hstill⟩ := hbefore.step hstep
      exact ⟨hafter, hquiet.trans hstill⟩
    · exact ⟨hidle, .of_trace_eq rfl⟩
  exact hkept.2

end Idle

/-- The trace of a run is only extended. -/
theorem Executor.trace_prefix {Value Actor Valence : Type} {self : Executor Value Actor Valence}
    {ok : State Value Valence → Action Value → Prop} {s s' : State Value Valence}
    (hrun : Steps self.step ok s s') : s.trace <+: s'.trace := by
  apply hrun.relates (fun before after => before.trace <+: after.trace)
  · exact fun _ => List.prefix_refl _
  · exact fun _ _ _ => List.IsPrefix.trans
  · intro before action after _ hstep
    cases Executor.transition_of_step hstep with
    | dispatch => exact List.prefix_append _ _
    | _ => exact List.prefix_refl _

namespace Quiet

/-- Dispatch stays stopped. -/
theorem of_steps {Value Actor Valence : Type} {self : Executor Value Actor Valence}
    {s s' : State Value Valence} (hquiet : Quiet self s) (hrun : Steps self.step anyStep s s') :
    Quiet self s' := by
  intro s'' hrun'
  obtain ⟨first, hfirst⟩ := Executor.trace_prefix hrun
  obtain ⟨second, hsecond⟩ := Executor.trace_prefix hrun'
  obtain ⟨later, hlater, hsilent⟩ := hquiet s'' (hrun.trans hrun')
  rw [← hsecond, ← hfirst, List.append_assoc] at hlater
  cases List.append_cancel_left hlater
  exact ⟨second, hsecond.symm, fun entry hentry => hsilent entry (List.mem_append_right _ hentry)⟩

/-- A turn of a dispatch that holds a permit is no activity. -/
theorem turn {Value Actor Valence : Type} {self : Executor Value Actor Valence}
    {s : State Value Valence} {i : Nat} {turn : Turn} {task : DispatchTask Value Valence}
    {pc' : Pc Valence} {effects : List (Effect Value Valence)} (hquiet : Quiet self s)
    (htask : s.tasks[i]? = some task) (hholds : task.pc.holds_permit = true)
    (hturn : dispatch_step self.toDispatchEnv task.args task.pc turn = some (pc', effects)) :
    (∀ effect ∈ effects, effect.is_activity = false) ∧
      ∃ s', Quiet self s' ∧ s'.tasks[i]? = some { task with pc := pc' } := by
  obtain ⟨s', hstep, htask', htrace, _, _⟩ := Executor.take_turn htask hholds hturn
  obtain ⟨later, hlater, hsilent⟩ := hquiet s' (.single trivial hstep)
  cases List.append_cancel_left (hlater.symm.trans htrace)
  refine ⟨?_, s', hquiet.of_steps (.single trivial hstep), htask'⟩
  intro effect heffect
  exact hsilent (i, effect) (List.mem_map_of_mem heffect)

theorem not_checkpoint {Value Actor Valence : Type} {self : Executor Value Actor Valence}
    {s : State Value Valence} {i : Nat} {task : DispatchTask Value Valence} {name : String}
    (hquiet : Quiet self s) (htask : s.tasks[i]? = some task) : task.pc ≠ .checkpoint name := by
  intro hpc
  have hturn := dispatch_step_coalescer_record self.toDispatchEnv task.args hpc
  obtain ⟨hsilent, _⟩ := hquiet.turn htask (by rw [hpc]; rfl) hturn
  cases hsilent _ (List.mem_singleton_self _)

theorem not_invoke {Value Actor Valence : Type} {self : Executor Value Actor Valence}
    {s : State Value Valence} {i : Nat} {task : DispatchTask Value Valence} {valence : Valence}
    (hquiet : Quiet self s) (htask : s.tasks[i]? = some task) : task.pc ≠ .invoke valence := by
  intro hpc
  have hturn : dispatch_step self.toDispatchEnv task.args task.pc .invoke =
      some (.running valence, [.invoke task.args.dispatch valence task.args.ev]) := by
    rw [hpc]
    rfl
  obtain ⟨hsilent, _⟩ := hquiet.turn htask (by rw [hpc]; rfl) hturn
  cases hsilent _ (List.mem_singleton_self _)

/-- A handler that runs for a durable named dispatch can return Ok, and then
its checkpoint follows. -/
theorem not_running {Value Actor Valence : Type} {self : Executor Value Actor Valence}
    {s : State Value Valence} {i : Nat} {task : DispatchTask Value Valence} {valence : Valence}
    (hquiet : Quiet self s) (htask : s.tasks[i]? = some task) (hdurable : task.args.is_durable = true)
    (hnamed : task.args.subscription_name ≠ none) : task.pc ≠ .running valence := by
  intro hpc
  obtain ⟨name, hname⟩ := Option.ne_none_iff_exists'.mp hnamed
  have hturn : dispatch_step self.toDispatchEnv task.args task.pc (.returned .Ok) =
      some (.checkpoint name, [.returned .Ok]) := by
    rw [hpc]
    simp only [dispatch_step, hdurable, hname]
  obtain ⟨_, s', hquiet', htask'⟩ := hquiet.turn htask (by rw [hpc]; rfl) hturn
  exact hquiet'.not_checkpoint htask' rfl

theorem not_build {Value Actor Valence : Type} {self : Executor Value Actor Valence}
    {s : State Value Valence} {i : Nat} {task : DispatchTask Value Valence} {valence : Valence}
    (hquiet : Quiet self s) (htask : s.tasks[i]? = some task)
    (hbuild : self.valence_factory.build task.args.ev.actor_json = .ok valence) : task.pc ≠ .build := by
  intro hpc
  have hturn : dispatch_step self.toDispatchEnv task.args task.pc .build =
      some (.invoke valence, [.build task.args.ev.actor_json]) := by
    rw [hpc]
    simp only [dispatch_step, hbuild]
  obtain ⟨_, s', hquiet', htask'⟩ := hquiet.turn htask (by rw [hpc]; rfl) hturn
  exact hquiet'.not_invoke htask' rfl

theorem not_gate {Value Actor Valence : Type} {self : Executor Value Actor Valence}
    {s : State Value Valence} {i : Nat} {task : DispatchTask Value Valence} {valence : Valence}
    (hquiet : Quiet self s) (htask : s.tasks[i]? = some task)
    (hsession : Session self.toDispatchEnv task.args valence) : task.pc ≠ .gate := by
  intro hpc
  obtain ⟨actor, hshape⟩ := hsession.shape
  have hturn : dispatch_step self.toDispatchEnv task.args task.pc .gate = some (.build, []) := by
    rw [hpc]
    simp only [dispatch_step, hshape]
  obtain ⟨_, s', hquiet', htask'⟩ := hquiet.turn htask (by rw [hpc]; rfl) hturn
  exact hquiet'.not_build htask' hsession.build rfl

end Quiet

/-- Once the subscription tasks are cancelled, no handler is invoked and no
checkpoint recorded any more exactly if none of the dispatches spawned before
can still act. -/
theorem abort_stops_dispatch_iff {Value Actor Valence : Type} {self : Executor Value Actor Valence}
    {s : State Value Valence} (hreachable : self.Reachable anyStep s) (hstopped : Stopped s) :
    Quiet self s ↔
      ∀ (i : Nat) (task : DispatchTask Value Valence), s.tasks[i]? = some task →
        ¬ CanAct self task.args task.pc := by
  have hsound := hreachable.sound
  constructor
  · intro hquiet i task htask hact
    cases hpc : task.pc with
    | acquire =>
      rw [hpc] at hact
      obtain ⟨hpool, valence, hsession⟩ := hact
      obtain ⟨s', hrun, htask'⟩ := hsound.can_acquire hpool htask hpc
      exact (hquiet.of_steps hrun).not_gate htask' hsession rfl
    | gate =>
      rw [hpc] at hact
      obtain ⟨valence, hsession⟩ := hact
      exact hquiet.not_gate htask hsession hpc
    | build =>
      rw [hpc] at hact
      obtain ⟨valence, hbuild⟩ := hact
      exact hquiet.not_build htask hbuild hpc
    | running valence =>
      rw [hpc] at hact
      exact hquiet.not_running htask hact.1 hact.2 hpc
    | invoke valence => exact hquiet.not_invoke htask hpc
    | checkpoint name => exact hquiet.not_checkpoint htask hpc
    | _ =>
      rw [hpc] at hact
      exact hact
  · intro hidle
    have hidle : Idle self s := ⟨hsound, hstopped.returned, hstopped.cancelled, hidle⟩
    exact hidle.quiet

/-- The event of the only dispatch is on its way when the handle is dropped. -/
def dropped_early : List (Action ActorJson) :=
  [.spawn_group, .group 0 (.lookup (.ok none)), .group 0 .subscribe,
    .group 0 (.next (some (.ok (orders_event none 1)))), .group 0 .spawn, .group 0 .spawn, .abort, .cancel 0]

/-- The rest of that dispatch. -/
def dropped_rest : List (Action ActorJson) :=
  [.dispatch 0 .acquire, .dispatch 0 .gate, .dispatch 0 .build, .dispatch 0 .invoke,
    .dispatch 0 (.returned .Ok), .dispatch 0 .coalescer_record]

def dropped_state : State ActorJson Actor :=
  (execute billing_executor.step billing_executor.start dropped_early).get rfl

def dropped_after : State ActorJson Actor :=
  (execute billing_executor.step dropped_state dropped_rest).get rfl

theorem dispatch_after_drop :
    ∃ s, billing_executor.Reachable anyStep s ∧ Stopped s ∧ ¬ Quiet billing_executor s := by
  refine ⟨dropped_state, execute_anyStep dropped_early (Option.some_get _).symm, ⟨rfl, rfl, ?_⟩, ?_⟩
  · intro group hgroup
    cases List.mem_singleton.mp hgroup
    rfl
  · intro hquiet
    have hrun : Steps billing_executor.step anyStep dropped_state dropped_after :=
      execute_anyStep dropped_rest (Option.some_get _).symm
    obtain ⟨later, hlater, hsilent⟩ := hquiet dropped_after hrun
    have hinvoked : (0, .invoke ⟨0⟩ (.User "u1") (orders_event none 1)) ∈ later := by
      have htrace : dropped_after.trace = dropped_state.trace ++
        [(0, .build (Actor.User "u1").to_value), (0, .invoke ⟨0⟩ (.User "u1") (orders_event none 1)),
          (0, .returned .Ok), (0, .coalescer_record "billing" "orders" none 1)] := rfl
      cases List.append_cancel_left (hlater.symm.trans htrace)
      simp
    cases hsilent _ hinvoked

/-- The handle dropped after that dispatch. -/
def dropped_late : List (Action ActorJson) :=
  [.spawn_group, .group 0 (.lookup (.ok none)), .group 0 .subscribe,
    .group 0 (.next (some (.ok (orders_event none 1)))), .group 0 .spawn, .group 0 .spawn] ++
    dropped_rest ++ [.dispatch 0 (.recorded true), .abort, .cancel 0]

def finished_state : State ActorJson Actor :=
  (execute billing_executor.step billing_executor.start dropped_late).get rfl

theorem abort_after_dispatch : Stopped finished_state ∧ Quiet billing_executor finished_state := by
  have hstopped : Stopped finished_state := by
    refine ⟨rfl, rfl, ?_⟩
    intro group hgroup
    cases List.mem_singleton.mp hgroup
    rfl
  refine ⟨hstopped, (abort_stops_dispatch_iff ?_ hstopped).mpr ?_⟩
  · exact execute_anyStep dropped_late (Option.some_get _).symm
  · intro i task htask
    cases List.mem_singleton.mp (List.mem_of_getElem? htask)
    exact id

end photon_valence_identity.executor
