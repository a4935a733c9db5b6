import PhotonValence.Executor.Drain

open photon_backend valence transition slots

namespace photon_valence_identity.executor

/-- The dispatch is in a handler that never returns. -/
def DispatchTask.stuck {Value Valence : Type} (hung : Spawn Value → Bool) (task : DispatchTask Value Valence) : Bool :=
  match task.pc with
  | .running _ => hung task.toSpawn
  | _ => false

/-- The handlers of the marked dispatches never return. -/
def Hangs {Value Valence : Type} (hung : Spawn Value → Bool) (s : State Value Valence) : Action Value → Prop
  | .dispatch i (.returned _) => ∀ task, s.tasks[i]? = some task → hung task.toSpawn = false
  | _ => True

def State.stuck {Value Valence : Type} (s : State Value Valence) (hung : Spawn Value → Bool) : Nat :=
  s.tasks.countP (DispatchTask.stuck hung)

/-- The executor can do nothing more for the dispatches it has spawned while
the hung handlers do not return. -/
def HangsAtRest {Value Actor Valence : Type} (self : Executor Value Actor Valence) (hung : Spawn Value → Bool)
    (s : State Value Valence) : Prop :=
  ∀ i turn, Hangs hung s (.dispatch i turn) → self.step s (.dispatch i turn) = none

theorem DispatchTask.holds_permit_of_stuck {Value Valence : Type} {hung : Spawn Value → Bool}
    {task : DispatchTask Value Valence} (hstuck : task.stuck hung = true) : task.pc.holds_permit = true := by
  cases hpc : task.pc <;> simp [DispatchTask.stuck, hpc, Pc.holds_permit] at hstuck ⊢

/-- A dispatch that takes a turn is not stuck. -/
theorem Moves.not_stuck {Value Actor Valence : Type} {env : DispatchEnv Value Actor Valence}
    {hung : Spawn Value → Bool} {s : State Value Valence} {i : Nat} {task : DispatchTask Value Valence}
    {pc' : Pc Valence} {turn : Turn} {effects : List (Effect Value Valence)} (htask : s.tasks[i]? = some task)
    (hmoves : Moves env task.args task.pc turn pc' effects) (hok : Hangs hung s (.dispatch i turn)) :
    task.stuck hung = false := by
  unfold DispatchTask.stuck
  generalize task.pc = pc at hmoves
  cases hmoves with
  | panic | err | ok_durable | ok_plain => exact hok task htask
  | _ => rfl

namespace Executor

/-- A dispatch that holds a permit has a turn to take unless it is stuck. -/
theorem exists_turn_of_not_stuck {Value Actor Valence : Type} (self : Executor Value Actor Valence)
    {hung : Spawn Value → Bool} {s : State Value Valence} {i : Nat} {task : DispatchTask Value Valence}
    (htask : s.tasks[i]? = some task) (hholds : task.pc.holds_permit = true) (hfree : task.stuck hung = false) :
    ∃ turn s', Hangs hung s (.dispatch i turn) ∧ self.step s (.dispatch i turn) = some s' := by
  obtain ⟨turn, pc', effects, _, hturn, _⟩ :=
    exists_turn self.toDispatchEnv task.args ⟨.Ok, true, true⟩ hholds
  obtain ⟨s', hstep, _⟩ := take_turn htask hholds hturn
  refine ⟨turn, s', ?_, hstep⟩
  have hmoves := moves_of_dispatch_step hturn
  cases turn with
  | returned result =>
    intro other hother
    cases Option.some.inj (htask.symm.trans hother)
    unfold DispatchTask.stuck at hfree
    generalize task.pc = pc at hmoves hfree
    cases hmoves <;> exact hfree
  | _ => trivial

/-- No step frees a dispatch that is stuck. -/
theorem stuck_le {Value Actor Valence : Type} {self : Executor Value Actor Valence}
    {hung : Spawn Value → Bool} {s s' : State Value Valence} {action : Action Value}
    (hok : Hangs hung s action) (hstep : self.step s action = some s') : s.stuck hung ≤ s'.stuck hung := by
  cases transition_of_step hstep with
  | group =>
    simp only [State.stuck, List.countP_append]
    exact Nat.le_add_right _ _
  | @dispatch i turn task pc' _ _ htask hmoves =>
    have hcount : (s.tasks.set i { task with pc := pc' }).countP (DispatchTask.stuck hung) +
        (if task.stuck hung then 1 else 0) = s.stuck hung +
          (if DispatchTask.stuck hung { task with pc := pc' } then 1 else 0) := countP_set_add htask
    rw [hmoves.not_stuck htask hok, if_neg Bool.false_ne_true, Nat.add_zero] at hcount
    exact (Nat.le_add_right _ _).trans hcount.ge
  | _ => exact Nat.le_refl _

end Executor

namespace Sound

/-- A permit is free, or kept by a dispatch that is stuck, or with one that has
a turn to take. -/
theorem permits_stuck_eq {Value Actor Valence : Type} {self : Executor Value Actor Valence}
    {s : State Value Valence} (hsound : Sound self s) (hung : Spawn Value → Bool) :
    s.permits + s.stuck hung + s.tasks.countP (fun task => task.pc.holds_permit && !task.stuck hung) =
      self.worker_pool := by
  have hsplit : s.tasks.countP (fun task => task.pc.holds_permit) =
      s.stuck hung + s.tasks.countP fun task => task.pc.holds_permit && !task.stuck hung := by
    rw [List.countP_eq_countP_filter_add _ _ (DispatchTask.stuck hung), List.countP_filter, List.countP_filter]
    congr 1
    · apply List.countP_congr
      intro task _
      simpa using fun hstuck => task.holds_permit_of_stuck hstuck
  have hpermits := hsound.permits_eq
  omega

/-- While a permit is left to the dispatches that are not stuck, one of them
has a turn to take unless they all have ended. -/
theorem exists_turn_within {Value Actor Valence : Type} {self : Executor Value Actor Valence}
    {s : State Value Valence} (hsound : Sound self s) {hung : Spawn Value → Bool}
    (hleft : s.stuck hung < self.worker_pool) {task : DispatchTask Value Valence} (htask : task ∈ s.tasks)
    (hopen : task.pc.ended = false) (hfree : task.stuck hung = false) :
    ∃ i turn s', Hangs hung s (.dispatch i turn) ∧ self.step s (.dispatch i turn) = some s' := by
  have hpermits := hsound.permits_stuck_eq hung
  by_cases hheld : s.tasks.countP (fun task => task.pc.holds_permit && !task.stuck hung) = 0
  · have hnot : task.pc.holds_permit = false := by
      simpa [hfree] using List.countP_eq_zero.mp hheld task htask
    obtain hwaiting | hholds | hended := task.pc.waiting_or_holds_or_ended
    · obtain ⟨i, hi⟩ := List.mem_iff_getElem?.mp htask
      obtain ⟨s', hstep, _⟩ := Executor.acquire_of_permit hi (Pc.eq_acquire_of_waiting hwaiting) (by omega)
      exact ⟨i, .acquire, s', trivial, hstep⟩
    · rw [hnot] at hholds
      cases hholds
    · rw [hopen] at hended
      cases hended
  · obtain ⟨holder, hholder, hboth⟩ := List.countP_pos_iff.mp (Nat.pos_of_ne_zero hheld)
    obtain ⟨i, hi⟩ := List.mem_iff_getElem?.mp hholder
    simp only [Bool.and_eq_true, Bool.not_eq_true'] at hboth
    obtain ⟨turn, s', hok, hstep⟩ := self.exists_turn_of_not_stuck hi hboth.1 hboth.2
    exact ⟨i, turn, s', hok, hstep⟩

/-- When the dispatches that are stuck have all the permits, nothing else gets
a turn. -/
theorem no_turn_within {Value Actor Valence : Type} {self : Executor Value Actor Valence}
    {s : State Value Valence} (hsound : Sound self s) {hung : Spawn Value → Bool}
    (hall : s.stuck hung = self.worker_pool) {i : Nat} {turn : Turn} (hok : Hangs hung s (.dispatch i turn)) :
    self.step s (.dispatch i turn) = none := by
  have hpermits := hsound.permits_stuck_eq hung
  cases hstep : self.step s (.dispatch i turn) with
  | none => rfl
  | some s' =>
    cases Executor.transition_of_step hstep with
    | @dispatch _ _ task _ _ _ htask hmoves htaken =>
      have hfree := hmoves.not_stuck htask hok
      have hnot : task.pc.holds_permit = false := by
        have hnone : s.tasks.countP (fun task => task.pc.holds_permit && !task.stuck hung) = 0 := by omega
        simpa [hfree] using List.countP_eq_zero.mp hnone task (List.mem_of_getElem? htask)
      obtain hwaiting | hholds | hended := task.pc.waiting_or_holds_or_ended
      · rw [Pc.eq_acquire_of_waiting hwaiting, permits_after, if_pos (by omega)] at htaken
        cases htaken
      · rw [hnot] at hholds
        cases hholds
      · rw [hmoves.not_ended] at hended
        cases hended

/-- The executor comes to rest when every dispatch that is not stuck has ended,
or when those that are stuck have all the permits. -/
theorem hangs_at_rest_iff {Value Actor Valence : Type} {self : Executor Value Actor Valence}
    {s : State Value Valence} (hsound : Sound self s) (hung : Spawn Value → Bool) :
    HangsAtRest self hung s ↔ (∀ task ∈ s.tasks, task.stuck hung = false → task.pc.ended = true) ∨
      s.stuck hung = self.worker_pool := by
  have hpermits := hsound.permits_stuck_eq hung
  constructor
  · intro hrest
    by_cases hall : s.stuck hung = self.worker_pool
    · exact .inr hall
    · refine .inl fun task htask hfree => ?_
      by_contra hopen
      obtain ⟨i, turn, s', hok, hstep⟩ :=
        hsound.exists_turn_within (by omega) htask (Bool.eq_false_iff.mpr hopen) hfree
      rw [hrest i turn hok] at hstep
      cases hstep
  · rintro (hended | hall) i turn hok
    · cases hstep : self.step s (.dispatch i turn) with
      | none => rfl
      | some s' =>
        cases Executor.transition_of_step hstep with
        | @dispatch _ _ task _ _ _ htask hmoves =>
          have hover := hended task (List.mem_of_getElem? htask) (hmoves.not_stuck htask hok)
          rw [hmoves.not_ended] at hover
          cases hover
    · exact hsound.no_turn_within hall hok

end Sound

/-- What an executor still does when all its permits are with dispatches that
are stuck: no dispatch goes on, and those that are spawned wait. -/
structure Clogged {Value Actor Valence : Type} (executor : Executor Value Actor Valence) (hung : Spawn Value → Bool)
    (s s' : State Value Valence) : Prop where
  stuck_eq : s'.stuck hung = executor.worker_pool
  trace_eq : s'.trace = s.trace
  tasks_eq : ∃ added, s'.tasks = s.tasks ++ added ∧ ∀ task ∈ added, task.pc = .acquire

theorem Clogged.step {Value Actor Valence : Type} {self : Executor Value Actor Valence}
    {hung : Spawn Value → Bool} {s s' s'' : State Value Valence} {action : Action Value}
    (hclogged : Clogged self hung s s') (hsound : Sound self s') (hok : Hangs hung s' action)
    (hstep : self.step s' action = some s'') : Clogged self hung s s'' := by
  have hkept := Executor.stuck_le hok hstep
  have hbound := (Executor.sound_step hsound hstep).permits_stuck_eq hung
  have hstuck : s''.stuck hung = self.worker_pool := by
    have heq := hclogged.stuck_eq
    omega
  obtain ⟨added, htasks, hwait⟩ := hclogged.tasks_eq
  cases action with
  | dispatch i turn =>
    rw [hsound.no_turn_within hclogged.stuck_eq hok] at hstep
    cases hstep
  | group =>
    cases Executor.transition_of_step hstep with
    | @group g turn group group' spawned =>
      refine ⟨hstuck, hclogged.trace_eq, added ++ _, by rw [htasks, List.append_assoc], ?_⟩
      intro task htask
      obtain hold | hnew := List.mem_append.mp htask
      · exact hwait task hold
      · obtain ⟨_, _, rfl⟩ := Option.map_eq_some_iff.mp (Option.mem_toList.mp hnew)
        rfl
  | spawn_group | abort | cancel =>
    cases Executor.transition_of_step hstep <;> exact ⟨hstuck, hclogged.trace_eq, added, htasks, hwait⟩

theorem Clogged.of_run {Value Actor Valence : Type} {self : Executor Value Actor Valence}
    {hung : Spawn Value → Bool} {s finish : State Value Valence} (hreachable : self.Reachable (Hangs hung) s)
    (hall : s.stuck hung = self.worker_pool) (hrun : Steps self.step (Hangs hung) s finish) :
    Clogged self hung s finish := by
  apply hrun.invariant_along
  · intro before action after hbefore hclogged hok hstep
    exact hclogged.step (Executor.Reachable.sound (hreachable.trans hbefore)) hok hstep
  · exact ⟨hall, rfl, [], (List.append_nil _).symm, by simp⟩

/-- A handler that never returns costs the pool a permit for as long as the
process runs. While a permit is left, the executor comes to rest only when
every other dispatch has ended. Once the handlers that hang have them all,
nothing that is or will be spawned, for any topic, gets a turn again. -/
theorem hung_handlers_clog_pool {Value Actor Valence : Type} {self : Executor Value Actor Valence}
    {hung : Spawn Value → Bool} {s finish : State Value Valence} (hreachable : self.Reachable (Hangs hung) s)
    (hrun : Steps self.step (Hangs hung) s finish) :
    s.stuck hung ≤ finish.stuck hung ∧ finish.permits + finish.stuck hung ≤ self.worker_pool ∧
      (HangsAtRest self hung finish ↔
        (∀ task ∈ finish.tasks, task.stuck hung = false → task.pc.ended = true) ∨
          finish.stuck hung = self.worker_pool) ∧
      (s.stuck hung = self.worker_pool → finish.trace = s.trace ∧
        ∃ added, finish.tasks = s.tasks ++ added ∧ ∀ task ∈ added, task.pc = .acquire) := by
  have hsound : Sound self finish := Executor.Reachable.sound (hreachable.trans hrun)
  have hkept : s.stuck hung ≤ finish.stuck hung :=
    hrun.relates (fun before after => before.stuck hung ≤ after.stuck hung) (fun _ => Nat.le_refl _)
      (fun _ _ _ => Nat.le_trans) fun _ _ _ hok hstep => Executor.stuck_le hok hstep
  have hpermits := hsound.permits_stuck_eq hung
  refine ⟨hkept, by omega, hsound.hangs_at_rest_iff hung, fun hall => ?_⟩
  have hclogged := Clogged.of_run hreachable hall hrun
  exact ⟨hclogged.trace_eq, hclogged.tasks_eq⟩

/-- The first two dispatches hang and take both permits. -/
def hanging : List (Action ActorJson) :=
  [.spawn_group, .group 0 (.lookup (.ok none)), .group 0 .subscribe,
    .group 0 (.next (some (.ok (orders_event none 1)))), .group 0 .spawn, .group 0 .spawn,
    .group 0 (.next (some (.ok (orders_event none 2)))), .group 0 .spawn, .group 0 .spawn,
    .dispatch 0 .acquire, .dispatch 0 .gate, .dispatch 0 .build, .dispatch 0 .invoke,
    .dispatch 1 .acquire, .dispatch 1 .gate, .dispatch 1 .build, .dispatch 1 .invoke]

/-- The third event is pulled and its dispatch spawned. -/
def clogged : List (Action ActorJson) :=
  [.group 0 (.next (some (.ok (orders_event none 3)))), .group 0 .spawn, .group 0 .spawn]

theorem hung_handlers_clog_pool_hanging : ∃ s finish : State ActorJson Actor,
    execute billing_executor.step billing_executor.start hanging = some s ∧
    execute billing_executor.step s clogged = some finish ∧ finish.trace = s.trace ∧
    finish.tasks.length = 3 ∧ HangsAtRest billing_executor (fun spawn => spawn.occurrence < 2) finish := by
  obtain ⟨s, hs, hstuck⟩ : ∃ s, execute billing_executor.step billing_executor.start hanging = some s ∧
      s.stuck (fun spawn => spawn.occurrence < 2) = 2 := ⟨_, rfl, rfl⟩
  obtain ⟨finish, hfinish, hlength⟩ : ∃ finish, execute billing_executor.step s clogged = some finish ∧
      finish.tasks.length = 3 := by
    cases hs
    exact ⟨_, rfl, rfl⟩
  have hreachable : billing_executor.Reachable (Hangs fun spawn => spawn.occurrence < 2) s :=
    execute_steps_of_forall hanging (by simp [hanging, Hangs]) hs
  have hrun : Steps billing_executor.step (Hangs fun spawn => spawn.occurrence < 2) s finish :=
    execute_steps_of_forall clogged (by simp [clogged, Hangs]) hfinish
  obtain ⟨hkept, hbound, hrest, hclogged⟩ := hung_handlers_clog_pool hreachable hrun
  refine ⟨s, finish, hs, hfinish, (hclogged hstuck).1, hlength, hrest.mpr (.inr ?_)⟩
  have hpool : billing_executor.worker_pool = 2 := rfl
  omega

end photon_valence_identity.executor
