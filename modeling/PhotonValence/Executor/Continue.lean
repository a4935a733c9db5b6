import PhotonValence.Executor.Pairs

open photon_backend transition slots

namespace photon_valence_identity.executor

/-- From `s` to `s'` only dispatch task `i` has moved, and its effects were
added to the trace. -/
structure State.MovesOnly {Value Valence : Type} (s s' : State Value Valence) (i : Nat) : Prop where
  unspawned_eq : s'.unspawned = s.unspawned
  aborted_eq : s'.aborted = s.aborted
  groups_eq : s'.groups = s.groups
  others_eq : ∀ j, j ≠ i → s'.tasks[j]? = s.tasks[j]?
  mover : ∀ task, s.tasks[i]? = some task → ∃ pc', s'.tasks[i]? = some { task with pc := pc' }
  trace_subset : s.trace ⊆ s'.trace

namespace State.MovesOnly

theorem refl {Value Valence : Type} (s : State Value Valence) (i : Nat) : s.MovesOnly s i where
  unspawned_eq := rfl
  aborted_eq := rfl
  groups_eq := rfl
  others_eq _ _ := rfl
  mover task htask := ⟨task.pc, htask⟩
  trace_subset := List.Subset.refl _

theorem trans {Value Valence : Type} {s s' s'' : State Value Valence} {i : Nat}
    (hfirst : s.MovesOnly s' i) (hsecond : s'.MovesOnly s'' i) : s.MovesOnly s'' i where
  unspawned_eq := hsecond.unspawned_eq.trans hfirst.unspawned_eq
  aborted_eq := hsecond.aborted_eq.trans hfirst.aborted_eq
  groups_eq := hsecond.groups_eq.trans hfirst.groups_eq
  others_eq j hne := (hsecond.others_eq j hne).trans (hfirst.others_eq j hne)
  mover task htask := by
    obtain ⟨_, htask'⟩ := hfirst.mover task htask
    obtain ⟨pc', htask''⟩ := hsecond.mover _ htask'
    exact ⟨pc', htask''⟩
  trace_subset := List.Subset.trans hfirst.trace_subset hsecond.trace_subset

/-- A dispatch that stands elsewhere than the mover stays there. -/
theorem stays {Value Valence : Type} {s s' : State Value Valence} {i j : Nat}
    {task other : DispatchTask Value Valence} (honly : s.MovesOnly s' i) (htask : s.tasks[i]? = some task)
    (hother : s.tasks[j]? = some other) (hpc : other.pc ≠ task.pc) : s'.tasks[j]? = some other := by
  have hne : j ≠ i := by
    rintro rfl
    cases Option.some.inj (htask.symm.trans hother)
    exact hpc rfl
  exact (honly.others_eq j hne).trans hother

end State.MovesOnly

theorem dispatch_step_coalescer_record {Value Actor Valence : Type} (env : DispatchEnv Value Actor Valence)
    (args : DispatchArgs Value) {pc : Pc Valence} {name : String} (hpc : pc = .checkpoint name) :
    dispatch_step env args pc .coalescer_record =
      some (.recording name, [.coalescer_record name args.topic_name args.ev.topic_key args.ev.seq]) := by
  rw [hpc]
  rfl

namespace Executor

/-- A turn of a dispatch task moves only that task. -/
theorem step_dispatch_cases {Value Actor Valence : Type} {self : Executor Value Actor Valence}
    {s s' : State Value Valence} {i : Nat} {turn : Turn}
    (hstep : self.step s (.dispatch i turn) = some s') :
    ∃ task pc' effects, s.tasks[i]? = some task ∧
      Moves self.toDispatchEnv task.args task.pc turn pc' effects ∧
      s'.tasks[i]? = some { task with pc := pc' } ∧ s'.trace = s.trace ++ effects.map (i, ·) ∧
      s.MovesOnly s' i := by
  cases transition_of_step hstep with
  | @dispatch _ _ task pc' effects permits htask hmoves hpermits =>
    refine ⟨task, pc', effects, htask, hmoves, getElem?_set_self htask, rfl, rfl, rfl, rfl, ?_, ?_, ?_⟩
    · intro j hne
      exact List.getElem?_set_ne hne.symm
    · intro mover hmover
      cases Option.some.inj (htask.symm.trans hmover)
      exact ⟨pc', getElem?_set_self htask⟩
    · exact List.subset_append_left _ _

/-- A dispatch that holds a permit can take each of its turns at any time. The
permit is free again once it has ended. -/
theorem take_turn {Value Actor Valence : Type} {self : Executor Value Actor Valence}
    {s : State Value Valence} {i : Nat} {turn : Turn} {task : DispatchTask Value Valence}
    {pc' : Pc Valence} {effects : List (Effect Value Valence)} (htask : s.tasks[i]? = some task)
    (hholds : task.pc.holds_permit = true)
    (hturn : dispatch_step self.toDispatchEnv task.args task.pc turn = some (pc', effects)) :
    ∃ s', self.step s (.dispatch i turn) = some s' ∧ s'.tasks[i]? = some { task with pc := pc' } ∧
      s'.trace = s.trace ++ effects.map (i, ·) ∧
      s'.permits = (if pc'.ended then s.permits + 1 else s.permits) ∧ s.MovesOnly s' i := by
  have hpermits : permits_after s.permits task.pc pc' =
      some (if pc'.ended then s.permits + 1 else s.permits) := by
    cases hpc : task.pc with
    | acquire => simp [hpc, Pc.holds_permit] at hholds
    | _ => rfl
  have hstep := step_dispatch htask hturn hpermits
  obtain ⟨_, _, _, _, _, _, _, honly⟩ := step_dispatch_cases hstep
  exact ⟨_, hstep, getElem?_set_self htask, rfl, rfl, honly⟩

/-- A turn that a subscription task can take is a step of the system. -/
theorem take_group_turn {Value Actor Valence : Type} (self : Executor Value Actor Valence)
    {s : State Value Valence} {g : Nat} {turn : GroupTurn Value} {group group' : GroupTask Value}
    {spawned : Option (Nat × DispatchArgs Value)} (hgroup : s.groups[g]? = some group)
    (hturn : group_step group turn = some (group', spawned)) :
    ∃ s', self.step s (.group g turn) = some s' ∧ s'.groups[g]? = some group' := by
  simp only [step, hgroup, hturn]
  exact ⟨_, rfl, getElem?_set_self hgroup⟩

end Executor

theorem Moves.returned_ok_of_returned {Value Actor Valence : Type} {env : DispatchEnv Value Actor Valence}
    {args : DispatchArgs Value} {pc pc' : Pc Valence} {effects : List (Effect Value Valence)}
    (hmoves : Moves env args pc (.returned .Ok) pc' effects) :
    pc'.returned_ok = true ∧ pc.failed = false := by
  cases hmoves <;> exact ⟨rfl, rfl⟩

/-- A dispatch has returned Ok by the turn in which its handler did, or had
before. -/
theorem Executor.Transition.returned_ok_origin {Value Actor Valence : Type}
    {self : Executor Value Actor Valence} {s s' : State Value Valence} {action : Action Value}
    (htransition : self.Transition s action s') {i : Nat} {task' : DispatchTask Value Valence}
    (htask' : s'.tasks[i]? = some task') (hreturned : task'.pc.returned_ok = true) :
    ∃ task, s.tasks[i]? = some task ∧ task'.toSpawn = task.toSpawn ∧
      (task.pc.returned_ok = true ∨ action = .dispatch i (.returned .Ok)) := by
  obtain ⟨task, htask, hspawn, hturn⟩ | hfresh := htransition.task_origin htask'
  · refine ⟨task, htask, hspawn, ?_⟩
    obtain hstays | ⟨turn, effects, rfl, hmoves⟩ := hturn
    · rw [hstays] at hreturned
      exact .inl hreturned
    · generalize task.pc = pc, task'.pc = pc' at hmoves hreturned
      cases hmoves <;> first | exact .inl rfl | exact .inr rfl | cases hreturned
  · rw [hfresh] at hreturned
    cases hreturned

/-- A durable named dispatch that has returned Ok has made its checkpoint call,
or makes it in a continuation in which nothing else happens. -/
theorem Sound.can_record {Value Actor Valence : Type} {self : Executor Value Actor Valence}
    {ok : State Value Valence → Action Value → Prop} {s : State Value Valence} {i : Nat}
    {task : DispatchTask Value Valence} {name : String} (hsound : Sound self s)
    (hok : ∀ state i turn, ok state (.dispatch i turn)) (htask : s.tasks[i]? = some task)
    (hreturned : task.pc.returned_ok = true) (hdurable : task.args.is_durable = true)
    (hname : task.args.subscription_name = some name) :
    ∃ s', Steps self.step ok s s' ∧ s.MovesOnly s' i ∧
      (i, .coalescer_record name task.args.topic_name task.args.ev.topic_key task.args.ev.seq) ∈ s'.trace := by
  have hledger := hsound.ledger i task htask
  cases hpc : task.pc with
  | checkpoint own =>
    rw [hpc] at hledger
    cases Option.some.inj (hname.symm.trans hledger.name_eq)
    have hturn := dispatch_step_coalescer_record self.toDispatchEnv task.args hpc
    have hholds : task.pc.holds_permit = true := by rw [hpc]; rfl
    obtain ⟨s', hstep, _, htrace, _, honly⟩ := Executor.take_turn htask hholds hturn
    refine ⟨s', .single (hok _ _ _) hstep, honly, ?_⟩
    rw [htrace]
    simp
  | recording | succeeded =>
    have hpast : task.pc.recorded = true := by rw [hpc]; rfl
    exact ⟨s, .refl s, .refl s i, hsound.coalescer_record_of_past htask hpast hdurable hname⟩
  | _ => simp [hpc, Pc.returned_ok] at hreturned

end photon_valence_identity.executor
