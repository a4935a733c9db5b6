import PhotonValence.Executor.Permits
import PhotonValence.Runtime.SystemValence

open transition register valence slots

namespace photon_valence_identity

open executor

/-- What the executors that are handed the same services contend for: a pool of
worker permits, and how many of them are free. -/
structure ExecutorServices where
  worker_pool : Nat
  permits : Nat

/-- A started executor, the services it was handed and how far it has come. The
free permits are those of its services; `state` has the ones after its last
turn. -/
structure PhotonRuntime (Value Actor Valence : Type) where
  executor : Executor Value Actor Valence
  services : Nat
  state : State Value Valence

/-- The state of a process: its factory slots, its executor services and the
executors it has started. -/
structure Process (Value Actor Valence : Type) where
  factories : ProcessFactories Value Valence := {}
  services : List ExecutorServices := []
  runtimes : List (PhotonRuntime Value Actor Valence) := []

/-- What can happen in a process. The executors started through
`build_photon_runtime` carry the factory it was given; `parts` is how
`build_photon_parts` ends. -/
inductive ProcessAction (Value Actor Valence : Type) where
  | set_process_valence_factory (factory : ValenceFactory Value Valence)
  | set_process_system_valence_factory (factory : ValenceFactory Value Valence)
  | executor_services (worker_pool : Nat)
  | start_executor (executor : Executor Value Actor Valence) (services : Nat)
  | build_photon_runtime (executor : Executor Value Actor Valence) (parts : Except String Unit)
  | run (r : Nat) (action : Action Value)

namespace Process

/-- New executor services, whose permits are all free. -/
def executor_services {Value Actor Valence : Type} (self : Process Value Actor Valence) (worker_pool : Nat) :
    Process Value Actor Valence :=
  { self with services := self.services ++ [⟨worker_pool, worker_pool⟩] }

def start_executor {Value Actor Valence : Type} (self : Process Value Actor Valence)
    (executor : Executor Value Actor Valence) (services : Nat) : Process Value Actor Valence :=
  { self with runtimes := self.runtimes ++ [⟨executor, services, executor.start⟩] }

/-- The process after the call, and whether it returned a runtime. The parts
bring executor services of their own. -/
def build_photon_runtime {Value Actor Valence : Type} (self : Process Value Actor Valence)
    (executor : Executor Value Actor Valence) (parts : Except String Unit) :
    Process Value Actor Valence × Except String Unit :=
  let pinned := { self with
    factories := self.factories.set_process_valence_factory executor.valence_factory }
  match parts with
  | .error e => (pinned, .error e)
  | .ok () => ((pinned.executor_services executor.worker_pool).start_executor executor pinned.services.length, .ok ())

/-- A runtime takes its turns with the free permits of its services, which other
runtimes may hold or free too. -/
def step {Value Actor Valence : Type} (self : Process Value Actor Valence) :
    ProcessAction Value Actor Valence → Option (Process Value Actor Valence)
  | .set_process_valence_factory factory =>
    some { self with factories := self.factories.set_process_valence_factory factory }
  | .set_process_system_valence_factory factory =>
    some { self with factories := self.factories.set_process_system_valence_factory factory }
  | .executor_services worker_pool => some (self.executor_services worker_pool)
  | .start_executor executor services =>
    if self.services[services]?.map ExecutorServices.worker_pool = some executor.worker_pool then
      some (self.start_executor executor services)
    else none
  | .build_photon_runtime executor parts => some (self.build_photon_runtime executor parts).1
  | .run r action =>
    match self.runtimes[r]? with
    | none => none
    | some runtime =>
      match self.services[runtime.services]? with
      | none => none
      | some services =>
        match runtime.executor.step (runtime.state.with_permits services.permits) action with
        | none => none
        | some state => some { self with
            services := self.services.set runtime.services { services with permits := state.permits }
            runtimes := self.runtimes.set r { runtime with state } }

/-- The states a process reaches from its start, when nothing is pinned and
nothing runs. -/
def Reachable {Value Actor Valence : Type} (self : Process Value Actor Valence) : Prop :=
  Steps step anyStep {} self

/-- Inversion of a start: the services have a pool of the size the executor was
given. -/
theorem step_start_cases {Value Actor Valence : Type} {self after : Process Value Actor Valence}
    {executor : Executor Value Actor Valence} {i : Nat}
    (hstep : self.step (.start_executor executor i) = some after) :
    ∃ services, self.services[i]? = some services ∧ services.worker_pool = executor.worker_pool ∧
      after = self.start_executor executor i := by
  simp only [step] at hstep
  split at hstep
  · rename_i hpool
    obtain ⟨services, hservices, hsize⟩ := Option.map_eq_some_iff.mp hpool
    cases hstep
    exact ⟨services, hservices, hsize, rfl⟩
  · cases hstep

/-- Inversion of a turn: it is one of the runtime's executor, with the free
permits of its services. -/
theorem step_run_cases {Value Actor Valence : Type} {self after : Process Value Actor Valence} {r : Nat}
    {action : Action Value} (hstep : self.step (.run r action) = some after) :
    ∃ runtime services state, self.runtimes[r]? = some runtime ∧ self.services[runtime.services]? = some services ∧
      runtime.executor.step (runtime.state.with_permits services.permits) action = some state ∧
      after = { self with
        services := self.services.set runtime.services { services with permits := state.permits }
        runtimes := self.runtimes.set r { runtime with state } } := by
  simp only [step] at hstep
  split at hstep
  · cases hstep
  · rename_i runtime hruntime
    split at hstep
    · cases hstep
    · rename_i services hservices
      split at hstep
      · cases hstep
      · rename_i state hturn
        cases hstep
        exact ⟨runtime, services, state, hruntime, hservices, hturn, rfl⟩

/-- No step changes a factory slot that is filled. -/
theorem step_slots {Value Actor Valence : Type} {self after : Process Value Actor Valence}
    {action : ProcessAction Value Actor Valence} (hstep : self.step action = some after)
    {factory : ValenceFactory Value Valence} :
    (self.factories.PROCESS_VALENCE_FACTORY.get = some factory →
      after.factories.PROCESS_VALENCE_FACTORY.get = some factory) ∧
    (self.factories.PROCESS_SYSTEM_VALENCE_FACTORY.get = some factory →
      after.factories.PROCESS_SYSTEM_VALENCE_FACTORY.get = some factory) := by
  cases action with
  | set_process_valence_factory other =>
    cases hstep
    exact ⟨fun hheld => by simp [ProcessFactories.set_process_valence_factory, hheld], id⟩
  | set_process_system_valence_factory other =>
    cases hstep
    exact ⟨id, fun hheld => by simp [ProcessFactories.set_process_system_valence_factory, hheld]⟩
  | executor_services =>
    cases hstep
    exact ⟨id, id⟩
  | start_executor =>
    obtain ⟨_, _, _, rfl⟩ := step_start_cases hstep
    exact ⟨id, id⟩
  | build_photon_runtime executor parts =>
    cases hstep
    refine ⟨fun hheld => ?_, ?_⟩
    · cases parts <;>
        simp [build_photon_runtime, start_executor, executor_services, ProcessFactories.set_process_valence_factory,
          hheld]
    · cases parts <;> exact id
  | run r action =>
    obtain ⟨_, _, _, _, _, _, rfl⟩ := step_run_cases hstep
    exact ⟨id, id⟩

/-- A factory pinned for dispatch stays pinned. -/
theorem pinned {Value Actor Valence : Type} {self after : Process Value Actor Valence}
    {ok : Process Value Actor Valence → ProcessAction Value Actor Valence → Prop}
    {factory : ValenceFactory Value Valence} (hrun : Steps step ok self after)
    (hpinned : self.factories.PROCESS_VALENCE_FACTORY.get = some factory) :
    after.factories.PROCESS_VALENCE_FACTORY.get = some factory :=
  hrun.invariant (fun _ _ _ hbefore _ hstep => (step_slots hstep).1 hbefore) hpinned

/-- A system factory once installed stays installed. -/
theorem installed {Value Actor Valence : Type} {self after : Process Value Actor Valence}
    {ok : Process Value Actor Valence → ProcessAction Value Actor Valence → Prop}
    {factory : ValenceFactory Value Valence} (hrun : Steps step ok self after)
    (hinstalled : self.factories.PROCESS_SYSTEM_VALENCE_FACTORY.get = some factory) :
    after.factories.PROCESS_SYSTEM_VALENCE_FACTORY.get = some factory :=
  hrun.invariant (fun _ _ _ hbefore _ hstep => (step_slots hstep).2 hbefore) hinstalled

/-- A started executor keeps its place in the process, what it was given and the
services it was handed. -/
theorem step_kept {Value Actor Valence : Type} {self after : Process Value Actor Valence}
    {action : ProcessAction Value Actor Valence} (hstep : self.step action = some after) {r : Nat}
    {runtime : PhotonRuntime Value Actor Valence} (hruntime : self.runtimes[r]? = some runtime) :
    ∃ state, after.runtimes[r]? = some { runtime with state } := by
  cases action with
  | set_process_system_valence_factory | set_process_valence_factory | executor_services =>
    cases hstep
    exact ⟨_, hruntime⟩
  | start_executor =>
    obtain ⟨_, _, _, rfl⟩ := step_start_cases hstep
    exact ⟨_, getElem?_append_of_some hruntime⟩
  | build_photon_runtime executor parts =>
    cases hstep
    cases parts with
    | error => exact ⟨_, hruntime⟩
    | ok => exact ⟨_, getElem?_append_of_some hruntime⟩
  | run r' action =>
    obtain ⟨running, _, state, hrunning, _, _, rfl⟩ := step_run_cases hstep
    by_cases hsame : r = r'
    · subst hsame
      cases Option.some.inj (hrunning.symm.trans hruntime)
      exact ⟨state, getElem?_set_self hruntime⟩
    · exact ⟨_, (List.getElem?_set_ne (Ne.symm hsame)).trans hruntime⟩

end Process

end photon_valence_identity
