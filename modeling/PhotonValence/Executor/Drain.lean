import Mathlib.Algebra.GroupWithZero.Nat
import PhotonValence.Executor.Abort
import PhotonValence.Executor.Backpressure
import PhotonValence.Slots.Total
import PhotonValence.Transition.Measure

open photon_backend valence transition slots

namespace photon_valence_identity.executor

/-- How far a dispatch has come. One that ends early skips the rest. -/
def Pc.progress {Valence : Type} : Pc Valence → Nat
  | .acquire => 0
  | .gate => 1
  | .build => 2
  | .invoke _ => 3
  | .running _ => 4
  | .checkpoint _ => 5
  | .dead_letter _ _ | .recording _ => 6
  | .succeeded | .dead_lettered _ _ | .panicked => 7

/-- The dispatch has still to get its permit. -/
def Pc.waiting {Valence : Type} : Pc Valence → Bool
  | .acquire => true
  | _ => false

def Action.is_dispatch {Value : Type} : Action Value → Bool
  | .dispatch _ _ => true
  | _ => false

def State.progress {Value Valence : Type} (s : State Value Valence) : Nat :=
  (s.tasks.map fun task => task.pc.progress).sum

/-- The executor can do nothing more for the dispatches it has spawned. -/
def AtRest {Value Actor Valence : Type} (self : Executor Value Actor Valence) (s : State Value Valence) : Prop :=
  ∀ i turn, self.step s (.dispatch i turn) = none

theorem Pc.progress_le {Valence : Type} (pc : Pc Valence) : pc.progress ≤ 7 := by
  cases pc <;> simp [progress]

/-- A dispatch waits, holds a permit or has ended. -/
theorem Pc.waiting_or_holds_or_ended {Valence : Type} (pc : Pc Valence) :
    pc.waiting = true ∨ pc.holds_permit = true ∨ pc.ended = true := by
  cases pc <;> simp [waiting, holds_permit, ended]

theorem Pc.eq_acquire_of_waiting {Valence : Type} {pc : Pc Valence} (hwaiting : pc.waiting = true) :
    pc = .acquire := by
  cases pc <;> first | rfl | cases hwaiting

/-- Every turn brings its dispatch on. -/
theorem Moves.progress_lt {Value Actor Valence : Type} {env : DispatchEnv Value Actor Valence}
    {args : DispatchArgs Value} {pc pc' : Pc Valence} {turn : Turn} {effects : List (Effect Value Valence)}
    (hmoves : Moves env args pc turn pc' effects) : pc.progress < pc'.progress := by
  cases hmoves <;> simp [Pc.progress]

/-- Dispatch turns bring the whole executor on, and nothing sets it back. -/
theorem Executor.progress_step {Value Actor Valence : Type} (self : Executor Value Actor Valence)
    (s : State Value Valence) (action : Action Value) (s' : State Value Valence)
    (hstep : self.step s action = some s') :
    s.progress + (if action.is_dispatch then 1 else 0) ≤ s'.progress := by
  cases transition_of_step hstep with
  | @group g turn group group' spawned =>
    cases spawned <;> simp [State.progress, Action.is_dispatch, Pc.progress]
  | @dispatch i turn task pc' _ _ htask hmoves =>
    have hmoved : ((s.tasks.set i { task with pc := pc' }).map fun task => task.pc.progress).sum +
        task.pc.progress = (s.tasks.map fun task => task.pc.progress).sum + pc'.progress := sum_map_set_add htask
    have hless := hmoves.progress_lt
    simp only [State.progress, Action.is_dispatch, if_true]
    omega
  | _ => exact Nat.le_refl _

theorem State.progress_le {Value Valence : Type} (s : State Value Valence) : s.progress ≤ 7 * s.tasks.length :=
  sum_map_le_mul fun task _ => task.pc.progress_le

theorem State.length_le_progress_add {Value Valence : Type} (s : State Value Valence) :
    7 * s.tasks.length ≤ s.progress + 7 * s.unfinished := by
  apply mul_length_le_sum_map_add
  intro task _ hended
  cases hpc : task.pc <;> simp [hpc, Pc.ended, Pc.progress] at hended ⊢

/-- A dispatch that holds a permit has a turn to take. -/
theorem Executor.exists_turn_of_holds {Value Actor Valence : Type} (self : Executor Value Actor Valence)
    {s : State Value Valence} {i : Nat} {task : DispatchTask Value Valence} (htask : s.tasks[i]? = some task)
    (hholds : task.pc.holds_permit = true) :
    ∃ turn s', turn ≠ .acquire ∧ self.step s (.dispatch i turn) = some s' := by
  obtain ⟨turn, pc', effects, _, hturn, _⟩ :=
    exists_turn self.toDispatchEnv task.args ⟨.Ok, true, true⟩ hholds
  obtain ⟨s', hstep, _⟩ := take_turn htask hholds hturn
  refine ⟨turn, s', ?_, hstep⟩
  rintro rfl
  have hmoves := moves_of_dispatch_step hturn
  generalize task.pc = pc at hmoves hholds
  cases hmoves with
  | acquire => cases hholds

/-- While no dispatch holds a permit, one that waits can have one. -/
theorem Sound.acquire_of_none_held {Value Actor Valence : Type} {self : Executor Value Actor Valence}
    {s : State Value Valence} (hsound : Sound self s) (hpool : 0 < self.worker_pool)
    (hnone : ∀ task ∈ s.tasks, task.pc.holds_permit = false) {i : Nat} {task : DispatchTask Value Valence}
    (htask : s.tasks[i]? = some task) (hwaiting : task.pc.waiting = true) :
    ∃ s', self.step s (.dispatch i .acquire) = some s' := by
  have hheld : s.tasks.countP (fun task => task.pc.holds_permit) = 0 :=
    List.countP_eq_zero.mpr fun task htask => by simp [hnone task htask]
  have hpermits := hsound.permits_eq
  have hpc := Pc.eq_acquire_of_waiting hwaiting
  obtain ⟨s', hstep, _⟩ : ∃ s', self.step s (.dispatch i .acquire) = some s' ∧
      s'.tasks[i]? = some { task with pc := .gate } := Executor.acquire_of_permit htask hpc (by omega)
  exact ⟨s', hstep⟩

/-- As long as a dispatch is unfinished, one of them has a turn to take. -/
theorem Sound.exists_dispatch_turn {Value Actor Valence : Type} {self : Executor Value Actor Valence}
    {s : State Value Valence} (hsound : Sound self s) (hpool : 0 < self.worker_pool)
    (hunfinished : s.unfinished ≠ 0) : ∃ i turn s', self.step s (.dispatch i turn) = some s' := by
  by_cases hheld : ∃ task ∈ s.tasks, task.pc.holds_permit = true
  · obtain ⟨task, hmember, hholds⟩ := hheld
    obtain ⟨i, htask⟩ := List.mem_iff_getElem?.mp hmember
    obtain ⟨turn, s', _, hstep⟩ := self.exists_turn_of_holds htask hholds
    exact ⟨i, turn, s', hstep⟩
  · have hnone : ∀ task ∈ s.tasks, task.pc.holds_permit = false := by
      simpa using hheld
    obtain ⟨task, hmember, hopen⟩ := List.countP_pos_iff.mp (Nat.pos_of_ne_zero hunfinished)
    obtain ⟨i, htask⟩ := List.mem_iff_getElem?.mp hmember
    obtain hwaiting | hholds | hended := task.pc.waiting_or_holds_or_ended
    · obtain ⟨s', hstep⟩ := hsound.acquire_of_none_held hpool hnone htask hwaiting
      exact ⟨i, .acquire, s', hstep⟩
    · rw [hnone task hmember] at hholds
      cases hholds
    · simp [hended] at hopen

/-- An executor at rest has finished all dispatches and has all its permits
back. -/
theorem Sound.finished_at_rest {Value Actor Valence : Type} {self : Executor Value Actor Valence}
    {s : State Value Valence} (hsound : Sound self s) (hpool : 0 < self.worker_pool) (hrest : AtRest self s) :
    s.unfinished = 0 ∧ s.permits = self.worker_pool := by
  have hfinished : s.unfinished = 0 := by
    by_contra hunfinished
    obtain ⟨i, turn, s', hstep⟩ := hsound.exists_dispatch_turn hpool hunfinished
    rw [hrest i turn] at hstep
    cases hstep
  refine ⟨hfinished, ?_⟩
  have hheld : s.tasks.countP (fun task => task.pc.holds_permit) = 0 := by
    refine List.countP_eq_zero.mpr fun task htask => ?_
    have hended : task.pc.ended = true := by simpa using List.countP_eq_zero.mp hfinished task htask
    cases hpc : task.pc <;> simp [hpc, Pc.ended, Pc.holds_permit] at hended ⊢
  have hpermits := hsound.permits_eq
  omega

/-- A run takes at most seven turns for each dispatch that it finds unfinished
or spawns. -/
theorem Executor.dispatch_turns_le {Value Actor Valence : Type} {self : Executor Value Actor Valence}
    {s finish : State Value Valence} {actions : List (Action Value)}
    (hexecute : execute self.step s actions = some finish) :
    actions.countP Action.is_dispatch ≤ 7 * (s.unfinished + (finish.tasks.length - s.tasks.length)) := by
  have hturns := execute_countP_add_le self.progress_step actions hexecute
  have hupper := finish.progress_le
  have hlower := s.length_le_progress_add
  omega

/-- Dispatch winds up under every schedule. Whatever else happens, the
dispatches take at most seven turns for each that was unfinished or is spawned
on the way; and when none has a turn left, all have ended and all permits are
free. -/
theorem dispatch_winds_up {Value Actor Valence : Type} {self : Executor Value Actor Valence}
    {s finish : State Value Valence} {actions : List (Action Value)} (hreachable : self.Reachable anyStep s)
    (hpool : 0 < self.worker_pool) (hexecute : execute self.step s actions = some finish) :
    actions.countP Action.is_dispatch ≤ 7 * (s.unfinished + (finish.tasks.length - s.tasks.length)) ∧
      (AtRest self finish → finish.unfinished = 0 ∧ finish.permits = self.worker_pool) := by
  have hfinish : self.Reachable anyStep finish := hreachable.trans (execute_anyStep actions hexecute)
  exact ⟨Executor.dispatch_turns_le hexecute, hfinish.sound.finished_at_rest hpool⟩

/-- The dispatch that was on its way when the handle was dropped goes on to its
end. -/
def winding : List (Action ActorJson) := dropped_rest ++ [.dispatch 0 (.recorded true)]

theorem dispatch_winds_up_dropped : ∃ finish, execute billing_executor.step dropped_state winding = some finish ∧
    winding.countP Action.is_dispatch ≤ 7 * (dropped_state.unfinished + (finish.tasks.length - 1)) ∧
    (AtRest billing_executor finish → finish.unfinished = 0 ∧ finish.permits = 2) := by
  obtain ⟨finish, hfinish⟩ : ∃ finish, execute billing_executor.step dropped_state winding = some finish := ⟨_, rfl⟩
  exact ⟨finish, hfinish, dispatch_winds_up (execute_anyStep dropped_early (Option.some_get _).symm) (by decide)
    hfinish⟩

/-- A stopped executor stays stopped and spawns nothing. -/
theorem Stopped.step {Value Actor Valence : Type} {self : Executor Value Actor Valence}
    {s s' : State Value Valence} {action : Action Value} (hstopped : Stopped s)
    (hstep : self.step s action = some s') :
    Stopped s' ∧ s'.tasks.map DispatchTask.toSpawn = s.tasks.map DispatchTask.toSpawn := by
  obtain ⟨hreturned, haborted, hover⟩ := hstopped
  cases Executor.transition_of_step hstep with
  | skip_group hkeys | spawn_group hkeys =>
    rw [hreturned] at hkeys
    cases hkeys
  | group hgroup hmoves =>
    have hgone := hover _ (List.mem_of_getElem? hgroup)
    cases hmoves <;> simp_all [GroupPc.is_over]
  | cancel _ hgroup hawaits =>
    have hgone := hover _ (List.mem_of_getElem? hgroup)
    obtain hpc | hpc := hawaits <;> simp [hpc, GroupPc.is_over] at hgone
  | abort => exact ⟨⟨hreturned, rfl, hover⟩, rfl⟩
  | dispatch htask => exact ⟨⟨hreturned, haborted, hover⟩, map_set_eq htask rfl⟩

theorem Stopped.steps {Value Actor Valence : Type} {self : Executor Value Actor Valence}
    {s s' : State Value Valence} (hstopped : Stopped s) (hrun : Steps self.step anyStep s s') :
    Stopped s' ∧ s'.tasks.map DispatchTask.toSpawn = s.tasks.map DispatchTask.toSpawn := by
  apply hrun.invariant
  · rintro before action after ⟨hbefore, hsame⟩ _ hstep
    obtain ⟨hafter, hstep_same⟩ := hbefore.step hstep
    exact ⟨hafter, hstep_same.trans hsame⟩
  · exact ⟨hstopped, rfl⟩

/-- Shutdown. Once the handle has been dropped and the subscription tasks are
cancelled, nothing is spawned and only the unfinished dispatches go on, for at
most seven turns each. When none of them has a turn left, all have ended and
all permits are free. -/
theorem shutdown_winds_up {Value Actor Valence : Type} {self : Executor Value Actor Valence}
    {s finish : State Value Valence} {actions : List (Action Value)} (hreachable : self.Reachable anyStep s)
    (hstopped : Stopped s) (hpool : 0 < self.worker_pool) (hexecute : execute self.step s actions = some finish) :
    Stopped finish ∧ finish.tasks.map DispatchTask.toSpawn = s.tasks.map DispatchTask.toSpawn ∧
      actions.countP Action.is_dispatch ≤ 7 * s.unfinished ∧
      (AtRest self finish → finish.unfinished = 0 ∧ finish.permits = self.worker_pool) := by
  have hrun := execute_anyStep actions hexecute
  have hfinish : self.Reachable anyStep finish := hreachable.trans hrun
  obtain ⟨hstill, hsame⟩ := hstopped.steps hrun
  refine ⟨hstill, hsame, ?_, hfinish.sound.finished_at_rest hpool⟩
  have hturns := Executor.dispatch_turns_le hexecute
  have hlength := congrArg List.length hsame
  rw [List.length_map, List.length_map] at hlength
  omega

theorem shutdown_winds_up_dropped : ∃ finish, execute billing_executor.step dropped_state winding = some finish ∧
    Stopped finish ∧ finish.tasks.map DispatchTask.toSpawn = dropped_state.tasks.map DispatchTask.toSpawn ∧
    winding.countP Action.is_dispatch ≤ 7 * dropped_state.unfinished ∧
    (AtRest billing_executor finish → finish.unfinished = 0 ∧ finish.permits = 2) := by
  obtain ⟨finish, hfinish⟩ : ∃ finish, execute billing_executor.step dropped_state winding = some finish := ⟨_, rfl⟩
  have hstopped : Stopped dropped_state := by
    refine ⟨rfl, rfl, ?_⟩
    intro group hgroup
    cases List.mem_singleton.mp hgroup
    rfl
  exact ⟨finish, hfinish, shutdown_winds_up (execute_anyStep dropped_early (Option.some_get _).symm) hstopped
    (by decide) hfinish⟩

end photon_valence_identity.executor
