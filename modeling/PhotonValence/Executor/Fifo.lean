import PhotonValence.Executor.Drain
import PhotonValence.Executor.Watermark

open photon_backend valence transition slots

namespace photon_valence_identity.executor

/-- Permits are granted in the order in which the dispatches were spawned, as
the fair semaphore of the pool does when they come to wait in that order. -/
def FirstComeFirstServed {Value Valence : Type} (s : State Value Valence) : Action Value → Prop
  | .dispatch i .acquire => ∀ j < i, ∀ earlier ∈ s.tasks[j]?, earlier.pc.waiting = false
  | _ => True

instance {Value Valence : Type} (s : State Value Valence) (action : Action Value) :
    Decidable (FirstComeFirstServed s action) :=
  match action with
  | .dispatch i .acquire => inferInstanceAs (Decidable (∀ j < i, ∀ earlier ∈ s.tasks[j]?, earlier.pc.waiting = false))
  | .dispatch _ .gate | .dispatch _ .build | .dispatch _ .invoke | .dispatch _ (.returned _) => instDecidableTrue
  | .dispatch _ (.dlq_record _) | .dispatch _ .coalescer_record | .dispatch _ (.recorded _) => instDecidableTrue
  | .spawn_group | .group _ _ | .abort | .cancel _ => instDecidableTrue

/-- The dispatches that wait are the last ones spawned. -/
def State.Queued {Value Valence : Type} (s : State Value Valence) : Prop :=
  ∀ (i j : Nat) (task later : DispatchTask Value Valence), s.tasks[i]? = some task → s.tasks[j]? = some later →
    i ≤ j → task.pc.waiting = true → later.pc.waiting = true

theorem Moves.waiting_eq_false {Value Actor Valence : Type} {env : DispatchEnv Value Actor Valence}
    {args : DispatchArgs Value} {pc pc' : Pc Valence} {turn : Turn} {effects : List (Effect Value Valence)}
    (hmoves : Moves env args pc turn pc' effects) : pc'.waiting = false := by
  cases hmoves <;> rfl

/-- A dispatch stops waiting by taking a permit. -/
theorem Moves.acquire_of_waiting {Value Actor Valence : Type} {env : DispatchEnv Value Actor Valence}
    {args : DispatchArgs Value} {pc pc' : Pc Valence} {turn : Turn} {effects : List (Effect Value Valence)}
    (hmoves : Moves env args pc turn pc' effects) (hwaiting : pc.waiting = true) : turn = .acquire := by
  cases hmoves <;> first | rfl | cases hwaiting

theorem Executor.Transition.queued {Value Actor Valence : Type} {self : Executor Value Actor Valence}
    {s s' : State Value Valence} {action : Action Value} (htransition : self.Transition s action s')
    (hfifo : FirstComeFirstServed s action) (hqueued : s.Queued) : s'.Queued := by
  intro i j task' later' htask' hlater' hle hwaiting
  obtain ⟨later, hlater, _, hpc⟩ | hfresh := htransition.task_origin hlater'
  · obtain ⟨hbound, _⟩ := List.getElem?_eq_some_iff.mp hlater
    have htask : s.tasks[i]? = some s.tasks[i] := List.getElem?_eq_getElem (by omega)
    obtain ⟨pc', hafter, hstays | ⟨_, _, _, hmoves⟩⟩ := htransition.task htask
    · cases Option.some.inj (hafter.symm.trans htask')
      have hbefore : s.tasks[i].pc.waiting = true := hstays ▸ hwaiting
      have hlast := hqueued i j _ later htask hlater hle hbefore
      obtain hsame | ⟨turn, effects, rfl, hmoves⟩ := hpc
      · rw [hsame]
        exact hlast
      · cases hmoves.acquire_of_waiting hlast
        obtain rfl | hlt := Nat.eq_or_lt_of_le hle
        · cases Option.some.inj (htask'.symm.trans hlater')
          exact hwaiting
        · rw [hfifo i hlt _ htask] at hbefore
          cases hbefore
    · cases Option.some.inj (hafter.symm.trans htask')
      rw [hmoves.waiting_eq_false] at hwaiting
      cases hwaiting
  · rw [hfresh]
    rfl

theorem Executor.Reachable.queued {Value Actor Valence : Type} {self : Executor Value Actor Valence}
    {ok : State Value Valence → Action Value → Prop} {s : State Value Valence} (hreachable : self.Reachable ok s)
    (hfifo : ∀ state action, ok state action → FirstComeFirstServed state action) : s.Queued := by
  apply Steps.invariant hreachable
  · intro before action after hqueued hok hstep
    exact (transition_of_step hstep).queued (hfifo before action hok) hqueued
  · simp [State.Queued, start]

/-- While a dispatch waits, only those spawned before it have come anywhere. -/
theorem State.Queued.progress_le {Value Valence : Type} {s : State Value Valence} (hqueued : s.Queued) {i : Nat}
    {task : DispatchTask Value Valence} (htask : s.tasks[i]? = some task) (hwaiting : task.pc.waiting = true) :
    s.progress ≤ 7 * i := by
  have hbefore : ((s.tasks.take i).map fun task => task.pc.progress).sum ≤ 7 * (s.tasks.take i).length :=
    sum_map_le_mul fun task _ => task.pc.progress_le
  have hafter : ((s.tasks.drop i).map fun task => task.pc.progress).sum ≤ 0 * (s.tasks.drop i).length := by
    refine sum_map_le_mul fun later hlater => ?_
    obtain ⟨j, hj⟩ := List.mem_iff_getElem?.mp hlater
    rw [List.getElem?_drop] at hj
    have hpc := Pc.eq_acquire_of_waiting (hqueued i (i + j) task later htask hj (Nat.le_add_right i j) hwaiting)
    rw [hpc]
    exact Nat.le_refl _
  have hsplit : s.progress = ((s.tasks.take i).map fun task => task.pc.progress).sum +
      ((s.tasks.drop i).map fun task => task.pc.progress).sum := by
    rw [← List.sum_append, ← List.map_append, List.take_append_drop]
    rfl
  have hlength := List.length_take_le i s.tasks
  omega

/-- As long as a dispatch waits, some dispatch can take a turn without the
order of the permits being broken. -/
theorem Sound.exists_fifo_turn {Value Actor Valence : Type} {self : Executor Value Actor Valence}
    {s : State Value Valence} (hsound : Sound self s) (hpool : 0 < self.worker_pool)
    (hwaits : ∃ (i : Nat), ∃ task ∈ s.tasks[i]?, task.pc.waiting = true) :
    ∃ i turn s', FirstComeFirstServed s (.dispatch i turn) ∧ self.step s (.dispatch i turn) = some s' := by
  classical
  by_cases hheld : ∃ task ∈ s.tasks, task.pc.holds_permit = true
  · obtain ⟨task, hmember, hholds⟩ := hheld
    obtain ⟨i, htask⟩ := List.mem_iff_getElem?.mp hmember
    obtain ⟨turn, s', hother, hstep⟩ := self.exists_turn_of_holds htask hholds
    refine ⟨i, turn, s', ?_, hstep⟩
    cases turn with
    | acquire => exact absurd rfl hother
    | _ => trivial
  · have hnone : ∀ task ∈ s.tasks, task.pc.holds_permit = false := by
      simpa using hheld
    -- the first dispatch that waits gets the permit
    obtain ⟨task, htask, hwaiting⟩ := Nat.find_spec hwaits
    obtain ⟨s', hstep⟩ := hsound.acquire_of_none_held hpool hnone htask hwaiting
    refine ⟨Nat.find hwaits, .acquire, s', ?_, hstep⟩
    intro j hlt earlier hearlier
    have hfirst := Nat.find_min hwaits hlt
    simp only [not_exists, not_and, Bool.not_eq_true] at hfirst
    exact hfirst earlier hearlier

/-- No dispatch starves under a fair pool. The dispatch spawned as number `i`
gets its permit after at most `7 * i` turns of dispatches, however many more
are spawned meanwhile; and while it waits some dispatch can take a turn. -/
theorem fifo_bounds_wait {Value Actor Valence : Type} {self : Executor Value Actor Valence}
    {s : State Value Valence} {actions : List (Action Value)} {i : Nat} {task : DispatchTask Value Valence}
    (hguarded : Guarded self.step FirstComeFirstServed self.start actions)
    (hexecute : execute self.step self.start actions = some s) (hpool : 0 < self.worker_pool)
    (htask : s.tasks[i]? = some task) (hwaiting : task.pc.waiting = true) :
    actions.countP Action.is_dispatch ≤ 7 * i ∧
      ∃ j turn s', FirstComeFirstServed s (.dispatch j turn) ∧ self.step s (.dispatch j turn) = some s' := by
  have hreachable : self.Reachable FirstComeFirstServed s := execute_steps actions hguarded hexecute
  refine ⟨?_, hreachable.sound.exists_fifo_turn hpool ⟨i, task, htask, hwaiting⟩⟩
  have hturns := execute_countP_add_le self.progress_step actions hexecute
  have hupper := (hreachable.queued fun _ _ => id).progress_le htask hwaiting
  omega

/-- Three events for a pool of two: the third dispatch waits while the first two
are on their way. -/
def queueing : List (Action ActorJson) :=
  [.spawn_group, .group 0 (.lookup (.ok none)), .group 0 .subscribe,
    .group 0 (.next (some (.ok (orders_event none 1)))), .group 0 .spawn, .group 0 .spawn,
    .group 0 (.next (some (.ok (orders_event none 2)))), .group 0 .spawn, .group 0 .spawn,
    .group 0 (.next (some (.ok (orders_event none 3)))), .group 0 .spawn, .group 0 .spawn,
    .dispatch 0 .acquire, .dispatch 1 .acquire, .dispatch 1 .gate, .dispatch 0 .gate, .dispatch 0 .build]

theorem fifo_bounds_wait_third : ∃ s task, execute billing_executor.step billing_executor.start queueing = some s ∧
    s.tasks[2]? = some task ∧ task.pc.waiting = true ∧ queueing.countP Action.is_dispatch ≤ 7 * 2 ∧
    ∃ j turn s', FirstComeFirstServed s (.dispatch j turn) ∧
      billing_executor.step s (.dispatch j turn) = some s' := by
  obtain ⟨s, task, hexecute, htask, hwaiting⟩ : ∃ s task,
      execute billing_executor.step billing_executor.start queueing = some s ∧ s.tasks[2]? = some task ∧
        task.pc.waiting = true := ⟨_, _, rfl, rfl, rfl⟩
  exact ⟨s, task, hexecute, htask, hwaiting,
    fifo_bounds_wait (by decide) hexecute (by decide) htask hwaiting⟩

end photon_valence_identity.executor
