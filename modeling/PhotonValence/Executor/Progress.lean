import PhotonValence.Executor.Continue

open photon_backend transition slots

namespace photon_valence_identity.executor

/-- The turns a dispatch with a permit has left at most. -/
def Pc.turns_left {Valence : Type} : Pc Valence → Nat
  | .gate => 6
  | .build => 5
  | .invoke _ => 4
  | .running _ => 3
  | .checkpoint _ => 2
  | .recording _ => 1
  | .dead_letter _ _ => 1
  | _ => 0

/-- A dispatch with a permit always has a turn to take, whatever the handler and
the services answer. It ends the dispatch or leaves it with fewer turns. -/
theorem exists_turn {Value Actor Valence : Type} (env : DispatchEnv Value Actor Valence)
    (args : DispatchArgs Value) (answers : DispatchAnswers) {pc : Pc Valence}
    (hholds : pc.holds_permit = true) :
    ∃ turn pc' effects, turn.Gets answers ∧ dispatch_step env args pc turn = some (pc', effects) ∧
      (pc'.ended = true ∨ pc'.holds_permit = true ∧ pc'.turns_left < pc.turns_left) := by
  cases pc with
  | acquire | succeeded | dead_lettered | panicked => cases hholds
  | gate =>
    cases hshape : env.codec.from_value args.ev.actor_json with
    | error e =>
      refine ⟨.gate, .dead_letter .IdentityBuild (shape_error e), [], trivial, ?_, .inr ⟨rfl, ?_⟩⟩
      · simp only [dispatch_step, hshape]
      · simp [Pc.turns_left]
    | ok actor =>
      refine ⟨.gate, .build, [], trivial, ?_, .inr ⟨rfl, ?_⟩⟩
      · simp only [dispatch_step, hshape]
      · simp [Pc.turns_left]
  | build =>
    cases hbuild : env.valence_factory.build args.ev.actor_json with
    | error e =>
      refine ⟨.build, .dead_letter .IdentityBuild e, [.build args.ev.actor_json], trivial, ?_, .inr ⟨rfl, ?_⟩⟩
      · simp only [dispatch_step, hbuild]
      · simp [Pc.turns_left]
    | ok valence =>
      refine ⟨.build, .invoke valence, [.build args.ev.actor_json], trivial, ?_, .inr ⟨rfl, ?_⟩⟩
      · simp only [dispatch_step, hbuild]
      · simp [Pc.turns_left]
  | invoke valence => exact ⟨.invoke, _, _, trivial, rfl, .inr ⟨rfl, by simp [Pc.turns_left]⟩⟩
  | running valence =>
    suffices h : ∃ pc' effects, dispatch_step env args (.running valence) (.returned answers.handler) =
        some (pc', effects) ∧ (pc'.ended = true ∨
          pc'.holds_permit = true ∧ pc'.turns_left < (Pc.running valence).turns_left) by
      obtain ⟨pc', effects, hturn, hnext⟩ := h
      exact ⟨.returned answers.handler, pc', effects, rfl, hturn, hnext⟩
    cases answers.handler with
    | Panic => exact ⟨.panicked, [.returned .Panic], rfl, .inl rfl⟩
    | Err e =>
      exact ⟨.dead_letter .HandlerError e, [.returned (.Err e)], rfl, .inr ⟨rfl, by simp [Pc.turns_left]⟩⟩
    | Ok =>
      cases hdurable : args.is_durable with
      | false =>
        exact ⟨.succeeded, [.returned .Ok], by simp only [dispatch_step, hdurable], .inl rfl⟩
      | true =>
        cases hname : args.subscription_name with
        | none =>
          exact ⟨.succeeded, [.returned .Ok], by simp only [dispatch_step, hdurable, hname], .inl rfl⟩
        | some name =>
          refine ⟨.checkpoint name, [.returned .Ok], ?_, .inr ⟨rfl, ?_⟩⟩
          · simp only [dispatch_step, hdurable, hname]
          · simp [Pc.turns_left]
  | checkpoint name => exact ⟨.coalescer_record, _, _, trivial, rfl, .inr ⟨rfl, by simp [Pc.turns_left]⟩⟩
  | dead_letter reason error => exact ⟨.dlq_record answers.dlq, _, _, rfl, rfl, .inl rfl⟩
  | recording name =>
    cases hcoalescer : answers.coalescer with
    | false => exact ⟨.recorded false, _, _, hcoalescer.symm, rfl, .inl rfl⟩
    | true => exact ⟨.recorded true, _, _, hcoalescer.symm, rfl, .inl rfl⟩

namespace Executor

/-- A dispatch with a permit can go on to its end while nothing else moves, and
then a permit is free. -/
theorem can_end {Value Actor Valence : Type} {self : Executor Value Actor Valence}
    {s : State Value Valence} {i : Nat} {task : DispatchTask Value Valence}
    (htask : s.tasks[i]? = some task) (hholds : task.pc.holds_permit = true) :
    ∃ s' pc', Steps self.step anyStep s s' ∧ s.MovesOnly s' i ∧ s'.permits ≠ 0 ∧
      s'.tasks[i]? = some { task with pc := pc' } ∧ pc'.ended = true := by
  induction hleft : task.pc.turns_left using Nat.strong_induction_on generalizing s task with
  | _ left ih =>
    obtain ⟨turn, pc', effects, _, hturn, hnext⟩ :=
      exists_turn self.toDispatchEnv task.args ⟨.Ok, true, true⟩ hholds
    obtain ⟨s', hstep, htask', _, hpermits, honly⟩ := take_turn htask hholds hturn
    obtain hended | ⟨hholds', hless⟩ := hnext
    · refine ⟨s', pc', .single trivial hstep, honly, ?_, htask', hended⟩
      rw [hpermits, hended]
      simp
    · obtain ⟨s'', pc'', hrun, honly', hfree, htask'', hended⟩ := ih _ (hleft ▸ hless) htask' hholds' rfl
      exact ⟨s'', pc'', (Steps.single trivial hstep).trans hrun, honly.trans honly', hfree, htask'', hended⟩

/-- A dispatch that waits can have a permit that is free. -/
theorem acquire_of_permit {Value Actor Valence : Type} {self : Executor Value Actor Valence}
    {s : State Value Valence} {i : Nat} {task : DispatchTask Value Valence} (htask : s.tasks[i]? = some task)
    (hpc : task.pc = .acquire) (hpermit : s.permits ≠ 0) :
    ∃ s', self.step s (.dispatch i .acquire) = some s' ∧ s'.tasks[i]? = some { task with pc := .gate } := by
  have hturn : dispatch_step self.toDispatchEnv task.args task.pc .acquire = some (.gate, []) := by
    rw [hpc]
    rfl
  have htaken : permits_after s.permits task.pc .gate = some (s.permits - 1) := by
    rw [hpc]
    exact if_neg hpermit
  exact ⟨_, step_dispatch htask hturn htaken, getElem?_set_self htask⟩

end Executor

namespace Sound

/-- A dispatch waiting for a permit can get one: a permit is free, or one of
the dispatches that hold them goes on to its end. -/
theorem can_acquire {Value Actor Valence : Type} {self : Executor Value Actor Valence}
    {s : State Value Valence} {i : Nat} {task : DispatchTask Value Valence} (hsound : Sound self s)
    (hpool : 0 < self.worker_pool) (htask : s.tasks[i]? = some task) (hpc : task.pc = .acquire) :
    ∃ s', Steps self.step anyStep s s' ∧ s'.tasks[i]? = some { task with pc := .gate } := by
  have hfree : ∃ s', Steps self.step anyStep s s' ∧ s'.tasks[i]? = some task ∧ s'.permits ≠ 0 := by
    by_cases hnone : s.permits = 0
    · have hheld := hsound.permits_eq
      have hcount : 0 < s.tasks.countP fun task => task.pc.holds_permit := by omega
      obtain ⟨holder, hmember, hholds⟩ := List.countP_pos_iff.mp hcount
      obtain ⟨j, hholder⟩ := List.mem_iff_getElem?.mp hmember
      have helsewhere : task.pc ≠ holder.pc := by
        intro hsame
        simp [← hsame, hpc, Pc.holds_permit] at hholds
      obtain ⟨s', _, hrun, honly, hpermits, _, _⟩ := Executor.can_end hholder hholds
      exact ⟨s', hrun, honly.stays hholder htask helsewhere, hpermits⟩
    · exact ⟨s, .refl s, htask, hnone⟩
  obtain ⟨s', hrun, htask', hpermits⟩ := hfree
  obtain ⟨s'', hstep, htask''⟩ := Executor.acquire_of_permit htask' hpc hpermits
  exact ⟨s'', .tail hrun trivial hstep, htask''⟩

end Sound

end photon_valence_identity.executor
