import Mathlib.Algebra.Order.BigOperators.Group.List
import PhotonValence.Executor.Drain
import PhotonValence.Runtime.Process
import PhotonValence.Slots.Total
import PhotonValence.Transition.View

open transition valence slots

namespace photon_valence_identity

open executor

/-- The runtime is in a state of its executor, but for the permits that other
runtimes hold. -/
def PhotonRuntime.Sound {Value Actor Valence : Type} (runtime : PhotonRuntime Value Actor Valence) : Prop :=
  ∃ worker_pool, executor.Sound { runtime.executor with worker_pool } runtime.state

/-- A turn is one of an executor with a pool of its own, as large as what is free
and what the runtime holds. -/
theorem PhotonRuntime.Sound.turn {Value Actor Valence : Type} {runtime : PhotonRuntime Value Actor Valence}
    (hsound : runtime.Sound) {permits : Nat} {action : Action Value} {state : State Value Valence}
    (hturn : runtime.executor.step (runtime.state.with_permits permits) action = some state) :
    PhotonRuntime.Sound { runtime with state } ∧ state.permits + state.held = permits + runtime.state.held := by
  obtain ⟨_, hsound⟩ := hsound
  have hafter := Executor.sound_step (hsound.with_permits permits) hturn
  exact ⟨⟨_, hafter⟩, hafter.permits_eq⟩

/-- The state that a runtime would be in if nobody else held permits of its
services. -/
def PhotonRuntime.alone {Value Actor Valence : Type} (runtime : PhotonRuntime Value Actor Valence) :
    State Value Valence :=
  runtime.state.with_permits (runtime.executor.worker_pool - runtime.state.held)

namespace Process

/-- The permits of services `i` that the dispatches of all runtimes hold. -/
def held {Value Actor Valence : Type} (self : Process Value Actor Valence) (i : Nat) : Nat :=
  (self.runtimes.map fun runtime => if runtime.services = i then runtime.state.held else 0).sum

/-- What holds of the pools in every state of a process. -/
structure Pooled {Value Actor Valence : Type} (process : Process Value Actor Valence) : Prop where
  sound : ∀ runtime ∈ process.runtimes, runtime.Sound
  handed : ∀ runtime ∈ process.runtimes, ∃ services, process.services[runtime.services]? = some services ∧
    services.worker_pool = runtime.executor.worker_pool
  permits_eq : ∀ (i : Nat) (services : ExecutorServices), process.services[i]? = some services →
    services.permits + process.held i = services.worker_pool

namespace Pooled

/-- What is free and what a runtime holds is no more than the pool. -/
theorem permits_le {Value Actor Valence : Type} {self : Process Value Actor Valence} (hpooled : self.Pooled)
    {r : Nat} {runtime : PhotonRuntime Value Actor Valence} (hruntime : self.runtimes[r]? = some runtime)
    {services : ExecutorServices} (hservices : self.services[runtime.services]? = some services) :
    services.permits + runtime.state.held ≤ services.worker_pool := by
  have hown : runtime.state.held ≤ self.held runtime.services := by
    refine List.single_le_sum (fun _ _ => Nat.zero_le _) _ ?_
    exact List.mem_map.mpr ⟨runtime, List.mem_of_getElem? hruntime, if_pos rfl⟩
  have hall := hpooled.permits_eq _ _ hservices
  omega

/-- A turn of a runtime is one that it could take alone. -/
theorem turn_alone {Value Actor Valence : Type} {self : Process Value Actor Valence} (hpooled : self.Pooled)
    {r : Nat} {runtime : PhotonRuntime Value Actor Valence} (hruntime : self.runtimes[r]? = some runtime)
    {services : ExecutorServices} (hservices : self.services[runtime.services]? = some services)
    {action : Action Value} {state : State Value Valence}
    (hturn : runtime.executor.step (runtime.state.with_permits services.permits) action = some state) :
    runtime.executor.step runtime.alone action = some (PhotonRuntime.alone { runtime with state }) := by
  have hmember := List.mem_of_getElem? hruntime
  obtain ⟨found, hfound, hsize⟩ := hpooled.handed runtime hmember
  cases Option.some.inj (hservices.symm.trans hfound)
  have hle := hpooled.permits_le hruntime hservices
  obtain ⟨_, hmoved⟩ := (hpooled.sound runtime hmember).turn hturn
  -- what others hold is spare for the runtime alone
  have hspare := Executor.step_spare hturn (services.worker_pool - runtime.state.held - services.permits)
  have hbefore : services.permits + (services.worker_pool - runtime.state.held - services.permits) =
      runtime.executor.worker_pool - runtime.state.held := by omega
  have hafter : state.permits + (services.worker_pool - runtime.state.held - services.permits) =
      runtime.executor.worker_pool - state.held := by omega
  rwa [State.with_permits_permits, hbefore, hafter] at hspare

theorem executor_services {Value Actor Valence : Type} {self : Process Value Actor Valence} (hpooled : self.Pooled)
    (worker_pool : Nat) : (self.executor_services worker_pool).Pooled where
  sound := hpooled.sound
  handed := by
    intro runtime hruntime
    obtain ⟨services, hservices, hsize⟩ := hpooled.handed runtime hruntime
    exact ⟨services, getElem?_append_of_some hservices, hsize⟩
  permits_eq := by
    intro i services hservices
    obtain hold | ⟨hle, hnew⟩ := getElem?_append_cases hservices
    · exact hpooled.permits_eq i services hold
    · -- no runtime has been handed the new services yet
      have hnone : self.held i = 0 := by
        refine List.sum_eq_zero_iff_forall_eq_nat.mpr fun count hcount => ?_
        obtain ⟨runtime, hruntime, rfl⟩ := List.mem_map.mp hcount
        obtain ⟨_, hhanded, _⟩ := hpooled.handed runtime hruntime
        refine if_neg fun hsame => ?_
        have hlt := (List.getElem?_eq_some_iff.mp hhanded).1
        omega
      obtain rfl := List.mem_singleton.mp (List.mem_of_getElem? hnew)
      exact congrArg (worker_pool + ·) hnone

theorem start_executor {Value Actor Valence : Type} {self : Process Value Actor Valence} (hpooled : self.Pooled)
    {executor : Executor Value Actor Valence} {i : Nat} {services : ExecutorServices}
    (hservices : self.services[i]? = some services) (hsize : services.worker_pool = executor.worker_pool) :
    (self.start_executor executor i).Pooled where
  sound := by
    intro runtime hruntime
    obtain hold | hnew := List.mem_append.mp hruntime
    · exact hpooled.sound runtime hold
    · rw [List.mem_singleton.mp hnew]
      exact ⟨executor.worker_pool, Executor.sound_start executor⟩
  handed := by
    intro runtime hruntime
    obtain hold | hnew := List.mem_append.mp hruntime
    · exact hpooled.handed runtime hold
    · rw [List.mem_singleton.mp hnew]
      exact ⟨services, hservices, hsize⟩
  permits_eq := by
    intro j other hother
    rw [← hpooled.permits_eq j other hother, held, held, Process.start_executor, List.map_append, List.sum_append]
    simp [State.held, Executor.start]

theorem run {Value Actor Valence : Type} {self after : Process Value Actor Valence} (hpooled : self.Pooled)
    {r : Nat} {action : Action Value} (hstep : self.step (.run r action) = some after) : after.Pooled := by
  obtain ⟨runtime, services, state, hruntime, hservices, hturn, rfl⟩ := step_run_cases hstep
  obtain ⟨hsound, hpermits⟩ := (hpooled.sound runtime (List.mem_of_getElem? hruntime)).turn hturn
  constructor
  · intro other hother
    obtain hold | rfl := List.mem_or_eq_of_mem_set hother
    · exact hpooled.sound other hold
    · exact hsound
  · intro other hother
    have hhanded : ∃ services, self.services[other.services]? = some services ∧
        services.worker_pool = other.executor.worker_pool := by
      obtain hold | rfl := List.mem_or_eq_of_mem_set hother
      · exact hpooled.handed other hold
      · exact hpooled.handed runtime (List.mem_of_getElem? hruntime)
    obtain ⟨found, hfound, hsize⟩ := hhanded
    by_cases hsame : runtime.services = other.services
    · rw [← hsame] at hfound ⊢
      cases Option.some.inj (hservices.symm.trans hfound)
      exact ⟨_, getElem?_set_self hservices, hsize⟩
    · exact ⟨found, (List.getElem?_set_ne hsame).trans hfound, hsize⟩
  · intro i found hfound
    have hmoved : ((self.runtimes.set r { runtime with state }).map fun runtime =>
        if runtime.services = i then runtime.state.held else 0).sum +
          (if runtime.services = i then runtime.state.held else 0) =
        self.held i + (if runtime.services = i then state.held else 0) := sum_map_set_add hruntime
    obtain ⟨rfl, rfl⟩ | ⟨hne, hold⟩ := getElem?_set_cases hfound
    · have hbefore := hpooled.permits_eq _ services hservices
      rw [if_pos rfl, if_pos rfl] at hmoved
      show state.permits + _ = services.worker_pool
      simp only [held]
      omega
    · rw [if_neg (Ne.symm hne), if_neg (Ne.symm hne)] at hmoved
      rw [← hpooled.permits_eq i found hold]
      exact congrArg (found.permits + ·) hmoved

/-- Every step keeps the pools. -/
theorem step {Value Actor Valence : Type} {self after : Process Value Actor Valence}
    {action : ProcessAction Value Actor Valence} (hpooled : self.Pooled) (hstep : self.step action = some after) :
    after.Pooled := by
  cases action with
  | set_process_valence_factory | set_process_system_valence_factory =>
    cases hstep
    exact ⟨hpooled.sound, hpooled.handed, hpooled.permits_eq⟩
  | executor_services worker_pool =>
    cases hstep
    exact hpooled.executor_services worker_pool
  | start_executor executor i =>
    obtain ⟨services, hservices, hsize, rfl⟩ := step_start_cases hstep
    exact hpooled.start_executor hservices hsize
  | build_photon_runtime executor parts =>
    cases hstep
    cases parts with
    | error => exact ⟨hpooled.sound, hpooled.handed, hpooled.permits_eq⟩
    | ok =>
      have hpinned : Pooled { self with
          factories := self.factories.set_process_valence_factory executor.valence_factory } :=
        ⟨hpooled.sound, hpooled.handed, hpooled.permits_eq⟩
      have hservices : (self.services ++ [⟨executor.worker_pool, executor.worker_pool⟩])[self.services.length]? =
          some ⟨executor.worker_pool, executor.worker_pool⟩ := List.getElem?_concat_length
      exact (hpinned.executor_services executor.worker_pool).start_executor hservices rfl
  | run r action => exact hpooled.run hstep

end Pooled

/-- Every state a process reaches keeps its pools. -/
theorem Reachable.pooled {Value Actor Valence : Type} {self : Process Value Actor Valence}
    (hreachable : self.Reachable) : self.Pooled := by
  apply Steps.invariant hreachable
  · exact fun _ _ _ hbefore _ hstep => hbefore.step hstep
  · exact ⟨by simp, by simp, by simp⟩

/-- A started executor keeps its place in the process and what it was given, and
stays sound. -/
theorem started {Value Actor Valence : Type} {self after : Process Value Actor Valence}
    {ok : Process Value Actor Valence → ProcessAction Value Actor Valence → Prop} (hrun : Steps step ok self after)
    {r : Nat} {runtime : PhotonRuntime Value Actor Valence} (hruntime : self.runtimes[r]? = some runtime)
    (hsound : runtime.Sound) :
    ∃ state, after.runtimes[r]? = some { runtime with state } ∧ PhotonRuntime.Sound { runtime with state } := by
  apply hrun.invariant _ ⟨runtime.state, hruntime, hsound⟩
  rintro before action after ⟨state, hstate, hsound⟩ _ hstep
  obtain ⟨next, hnext⟩ := step_kept hstep hstate
  refine ⟨next, hnext, ?_⟩
  cases action with
  | run r' action =>
    obtain ⟨running, _, turned, hrunning, _, hturn, rfl⟩ := step_run_cases hstep
    obtain ⟨rfl, hsame⟩ | ⟨_, hold⟩ := getElem?_set_cases hnext
    · cases Option.some.inj (hrunning.symm.trans hstate)
      rw [hsame]
      exact (PhotonRuntime.Sound.turn hsound hturn).1
    · cases Option.some.inj (hold.symm.trans hstate)
      exact hsound
  | set_process_system_valence_factory | set_process_valence_factory | executor_services =>
    cases hstep
    cases Option.some.inj (hnext.symm.trans hstate)
    exact hsound
  | start_executor =>
    obtain ⟨_, _, _, rfl⟩ := step_start_cases hstep
    cases Option.some.inj (hnext.symm.trans (getElem?_append_of_some hstate))
    exact hsound
  | build_photon_runtime executor parts =>
    cases hstep
    cases parts with
    | error =>
      cases Option.some.inj (hnext.symm.trans hstate)
      exact hsound
    | ok =>
      cases Option.some.inj (hnext.symm.trans (getElem?_append_of_some hstate))
      exact hsound

/-- From `before` to `after` only runtime `r` has moved, and its executor sees
the state `s`. -/
structure MovesOnly {Value Actor Valence : Type} (before after : Process Value Actor Valence) (r : Nat)
    (runtime : PhotonRuntime Value Actor Valence) (s : State Value Valence) : Prop where
  mover : ∃ state, after.runtimes[r]? = some { runtime with state } ∧ state.with_permits s.permits = s
  services_eq : ∃ services, after.services[runtime.services]? = some services ∧ services.permits = s.permits
  others_eq : ∀ j, j ≠ r → after.runtimes[j]? = before.runtimes[j]?

/-- A run of one runtime with the free permits of its services is one of the
process, in which no other runtime moves. -/
theorem run_steps {Value Actor Valence : Type} {self : Process Value Actor Valence} {r : Nat}
    {runtime : PhotonRuntime Value Actor Valence} (hruntime : self.runtimes[r]? = some runtime)
    {services : ExecutorServices} (hservices : self.services[runtime.services]? = some services)
    {s : State Value Valence}
    (hrun : Steps runtime.executor.step anyStep (runtime.state.with_permits services.permits) s) :
    ∃ later, Steps step anyStep self later ∧ self.MovesOnly later r runtime s := by
  refine hrun.matched (fun s later => self.MovesOnly later r runtime s) ?_
    ⟨⟨runtime.state, hruntime, rfl⟩, ⟨services, hservices, rfl⟩, fun _ _ => rfl⟩
  rintro before action after reached ⟨⟨state, hstate, hsame⟩, ⟨free, hfree, hpermits⟩, hothers⟩ _ hturn
  rw [← hsame, ← hpermits] at hturn
  have hstep : reached.step (.run r action) = some { reached with
      services := reached.services.set runtime.services { free with permits := after.permits }
      runtimes := reached.runtimes.set r { runtime with state := after } } := by
    simp only [step, hstate, hfree, hturn]
  refine ⟨_, .single trivial hstep, ⟨after, getElem?_set_self hstate, rfl⟩, ⟨_, getElem?_set_self hfree, rfl⟩, ?_⟩
  exact fun j hne => (List.getElem?_set_ne (Ne.symm hne)).trans (hothers j hne)

/-- A dispatch with a permit can go on to its end while nothing else moves. -/
theorem run_end {Value Actor Valence : Type} {self : Process Value Actor Valence} {r i : Nat}
    {runtime : PhotonRuntime Value Actor Valence} (hruntime : self.runtimes[r]? = some runtime)
    {services : ExecutorServices} (hservices : self.services[runtime.services]? = some services)
    {s : State Value Valence}
    (hrun : Steps runtime.executor.step anyStep (runtime.state.with_permits services.permits) s)
    {task : DispatchTask Value Valence} (htask : s.tasks[i]? = some task) (hholds : task.pc.holds_permit = true) :
    ∃ later state pc', Steps step anyStep self later ∧ later.runtimes[r]? = some { runtime with state } ∧
      state.tasks[i]? = some { task with pc := pc' } ∧ pc'.ended = true := by
  obtain ⟨s', pc', hrun', htask', hended⟩ : ∃ s' pc', Steps runtime.executor.step anyStep s s' ∧
      s'.tasks[i]? = some { task with pc := pc' } ∧ pc'.ended = true := by
    obtain ⟨s', pc', hrun', _, _, htask', hended⟩ := Executor.can_end htask hholds
    exact ⟨s', pc', hrun', htask', hended⟩
  obtain ⟨later, hlater, ⟨⟨state, hstate, heq⟩, _, _⟩⟩ := run_steps hruntime hservices (hrun.trans hrun')
  rw [← heq] at htask'
  exact ⟨later, state, pc', hlater, hstate, htask', hended⟩

namespace Pooled

/-- A runtime whose dispatch waits for a permit can find one free: one of the
dispatches that hold them, its own or another runtime's, goes on to its end. -/
theorem can_free {Value Actor Valence : Type} {self : Process Value Actor Valence} (hpooled : self.Pooled) {r i : Nat}
    {runtime : PhotonRuntime Value Actor Valence} (hruntime : self.runtimes[r]? = some runtime)
    (hpool : 0 < runtime.executor.worker_pool) {task : DispatchTask Value Valence}
    (htask : runtime.state.tasks[i]? = some task) (hpc : task.pc = .acquire) :
    ∃ later state services, Steps Process.step anyStep self later ∧
      later.runtimes[r]? = some { runtime with state } ∧ state.tasks[i]? = some task ∧
      later.services[runtime.services]? = some services ∧ services.permits ≠ 0 := by
  obtain ⟨services, hservices, hsize⟩ := hpooled.handed runtime (List.mem_of_getElem? hruntime)
  by_cases hnone : services.permits = 0
  · have hheld := hpooled.permits_eq _ services hservices
    obtain ⟨count, hcount, hpositive⟩ := List.sum_pos_iff_exists_pos_nat.mp
      (show 0 < self.held runtime.services by omega)
    obtain ⟨other, hmember, rfl⟩ := List.mem_map.mp hcount
    split at hpositive
    · rename_i hsame
      obtain ⟨r', hother⟩ := List.mem_iff_getElem?.mp hmember
      obtain ⟨holder, hholder, hholds⟩ := List.countP_pos_iff.mp hpositive
      obtain ⟨j, hj⟩ := List.mem_iff_getElem?.mp hholder
      have hservices' : self.services[other.services]? = some services := hsame ▸ hservices
      obtain ⟨s, hrun, honly, hpermits⟩ : ∃ s,
          Steps other.executor.step anyStep (other.state.with_permits services.permits) s ∧
            (other.state.with_permits services.permits).MovesOnly s j ∧ s.permits ≠ 0 := by
        obtain ⟨s, _, hrun, honly, hpermits, _⟩ :=
          Executor.can_end (s := other.state.with_permits services.permits) hj hholds
        exact ⟨s, hrun, honly, hpermits⟩
      obtain ⟨later, hlater, ⟨⟨state, hstate, heq⟩, ⟨free, hfree, hfree'⟩, hothers⟩⟩ := run_steps hother hservices' hrun
      rw [hsame] at hfree
      rw [← hfree'] at hpermits
      by_cases hown : r = r'
      · subst hown
        cases Option.some.inj (hruntime.symm.trans hother)
        have helsewhere : task.pc ≠ holder.pc := by
          intro hsame
          simp [← hsame, hpc, Pc.holds_permit] at hholds
        have hstays : s.tasks[i]? = some task := honly.stays hj htask helsewhere
        rw [← heq] at hstays
        exact ⟨later, state, free, hlater, hstate, hstays, hfree, hpermits⟩
      · exact ⟨later, runtime.state, free, hlater, (hothers r hown).trans hruntime, htask, hfree, hpermits⟩
    · cases hpositive
  · exact ⟨self, runtime.state, services, .refl _, hruntime, htask, hservices, hnone⟩

/-- Every dispatch of a runtime can go on to its end, whatever other runtimes
hold, unless the pool has no permits at all. -/
theorem can_end {Value Actor Valence : Type} {self : Process Value Actor Valence} (hpooled : self.Pooled) {r i : Nat}
    {runtime : PhotonRuntime Value Actor Valence} (hruntime : self.runtimes[r]? = some runtime)
    (hpool : 0 < runtime.executor.worker_pool) {task : DispatchTask Value Valence}
    (htask : runtime.state.tasks[i]? = some task) :
    ∃ later state pc', Steps Process.step anyStep self later ∧ later.runtimes[r]? = some { runtime with state } ∧
      state.tasks[i]? = some { task with pc := pc' } ∧ pc'.ended = true := by
  obtain hwaiting | hholds | hended := task.pc.waiting_or_holds_or_ended
  · have hpc := Pc.eq_acquire_of_waiting hwaiting
    obtain ⟨later, state, services, hlater, hstate, htask', hservices, hfree⟩ :=
      hpooled.can_free hruntime hpool htask hpc
    obtain ⟨s, hstep, htask''⟩ : ∃ s, runtime.executor.step (state.with_permits services.permits)
        (.dispatch i .acquire) = some s ∧ s.tasks[i]? = some { task with pc := .gate } :=
      Executor.acquire_of_permit htask' hpc hfree
    obtain ⟨finish, last, pc', hfinish, hlast, hlast', hended⟩ :=
      run_end hstate hservices (.single trivial hstep) htask'' rfl
    exact ⟨finish, last, pc', hlater.trans hfinish, hlast, hlast', hended⟩
  · obtain ⟨services, hservices, _⟩ := hpooled.handed runtime (List.mem_of_getElem? hruntime)
    exact run_end hruntime hservices (.refl _) htask hholds
  · exact ⟨self, runtime.state, task.pc, .refl _, hruntime, htask, hended⟩

end Pooled

end Process

end photon_valence_identity
