import PhotonValence.Runtime.Boot
import PhotonValence.Transition.View

open register valence serde_json transition slots

namespace photon_valence_identity

open executor

namespace ProcessAction

/-- The factory the call offers for dispatch. `build_photon_runtime` offers its
own before it can fail. -/
def offers {Value Actor Valence : Type} :
    ProcessAction Value Actor Valence → Option (ValenceFactory Value Valence)
  | .set_process_valence_factory factory => some factory
  | .build_photon_runtime executor _ => some executor.valence_factory
  | _ => none

def offers_system {Value Actor Valence : Type} :
    ProcessAction Value Actor Valence → Option (ValenceFactory Value Valence)
  | .set_process_system_valence_factory factory => some factory
  | _ => none

/-- The executor the call starts. -/
def starts {Value Actor Valence : Type} : ProcessAction Value Actor Valence → Option (Executor Value Actor Valence)
  | .start_executor executor _ | .build_photon_runtime executor (.ok ()) => some executor
  | _ => none

/-- What the action is to runtime `r`. -/
def turn_of {Value Actor Valence : Type} (r : Nat) : ProcessAction Value Actor Valence → Option (Action Value)
  | .run r' action => if r' = r then some action else none
  | _ => none

end ProcessAction

namespace Process

/-- A step fills an empty slot with what it offers, and adds the executor it
starts. -/
theorem step_history {Value Actor Valence : Type} {self after : Process Value Actor Valence}
    {action : ProcessAction Value Actor Valence} (hstep : self.step action = some after) :
    after.factories.PROCESS_VALENCE_FACTORY.get = self.factories.PROCESS_VALENCE_FACTORY.get.or action.offers ∧
      after.factories.PROCESS_SYSTEM_VALENCE_FACTORY.get =
        self.factories.PROCESS_SYSTEM_VALENCE_FACTORY.get.or action.offers_system ∧
      after.runtimes.map PhotonRuntime.executor =
        self.runtimes.map PhotonRuntime.executor ++ action.starts.toList := by
  have hfilled : ∀ (slot : OnceLock (ValenceFactory Value Valence)) (factory : ValenceFactory Value Valence),
      (slot.set factory).get = slot.get.or (some factory) := by
    intro slot factory
    rw [OnceLock.get_set]
    cases slot.get <;> rfl
  cases action with
  | set_process_valence_factory factory =>
    cases hstep
    exact ⟨hfilled _ factory, Option.or_none.symm, (List.append_nil _).symm⟩
  | set_process_system_valence_factory factory =>
    cases hstep
    exact ⟨Option.or_none.symm, hfilled _ factory, (List.append_nil _).symm⟩
  | executor_services =>
    cases hstep
    exact ⟨Option.or_none.symm, Option.or_none.symm, (List.append_nil _).symm⟩
  | start_executor =>
    obtain ⟨_, _, _, rfl⟩ := step_start_cases hstep
    exact ⟨Option.or_none.symm, Option.or_none.symm, List.map_append⟩
  | build_photon_runtime executor parts =>
    cases hstep
    cases parts with
    | error e => exact ⟨hfilled _ executor.valence_factory, Option.or_none.symm, (List.append_nil _).symm⟩
    | ok => exact ⟨hfilled _ executor.valence_factory, Option.or_none.symm, List.map_append⟩
  | run r action =>
    obtain ⟨running, _, state, hrunning, _, _, rfl⟩ := step_run_cases hstep
    refine ⟨Option.or_none.symm, Option.or_none.symm, ?_⟩
    have hsame : (self.runtimes.set r { running with state }).map PhotonRuntime.executor =
        self.runtimes.map PhotonRuntime.executor := map_set_eq hrunning rfl
    simp [hsame, ProcessAction.starts]

/-- A slot holds what it held or else what was offered to it first. -/
theorem execute_slots {Value Actor Valence : Type} (history : List (ProcessAction Value Actor Valence))
    {self after : Process Value Actor Valence} (hexecute : execute step self history = some after) :
    after.factories.PROCESS_VALENCE_FACTORY.get =
        self.factories.PROCESS_VALENCE_FACTORY.get.or (history.findSome? ProcessAction.offers) ∧
      after.factories.PROCESS_SYSTEM_VALENCE_FACTORY.get =
        self.factories.PROCESS_SYSTEM_VALENCE_FACTORY.get.or (history.findSome? ProcessAction.offers_system) := by
  induction history generalizing self with
  | nil =>
    cases hexecute
    exact ⟨Option.or_none.symm, Option.or_none.symm⟩
  | cons action rest ih =>
    obtain ⟨next, hstep, hrest⟩ := Option.bind_eq_some_iff.mp hexecute
    obtain ⟨hpinned, hsystem, _⟩ := step_history hstep
    obtain ⟨hpinned', hsystem'⟩ := ih hrest
    have hfirst : ∀ offered : ProcessAction Value Actor Valence → Option (ValenceFactory Value Valence),
        (action :: rest).findSome? offered = (offered action).or (rest.findSome? offered) := by
      intro offered
      rw [List.findSome?_cons]
      cases offered action <;> rfl
    constructor
    · rw [hpinned', hpinned, hfirst, Option.or_assoc]
    · rw [hsystem', hsystem, hfirst, Option.or_assoc]

/-- The runtimes are those that were started, in order. -/
theorem execute_starts {Value Actor Valence : Type} (history : List (ProcessAction Value Actor Valence))
    {self after : Process Value Actor Valence} (hexecute : execute step self history = some after) :
    after.runtimes.map PhotonRuntime.executor =
      self.runtimes.map PhotonRuntime.executor ++ history.filterMap ProcessAction.starts := by
  have hadds : ∀ (before : Process Value Actor Valence) (action : ProcessAction Value Actor Valence) after,
      step before action = some after → after.runtimes.map PhotonRuntime.executor =
        before.runtimes.map PhotonRuntime.executor ++ action.starts.toList :=
    fun _ _ _ hstep => (step_history hstep).2.2
  exact execute_collects (fun _ => True)
    (fun before action after _ hstep => ⟨trivial, hadds before action after hstep⟩) history
    trivial hexecute

/-- The turns that a history has for each runtime lead that runtime alone to the
state it is in, but for the permits. -/
theorem execute_alone {Value Actor Valence : Type} (history : List (ProcessAction Value Actor Valence))
    {process : Process Value Actor Valence} (hexecute : execute step {} history = some process) :
    (∀ r, process.runtimes.length ≤ r → history.filterMap (ProcessAction.turn_of r) = []) ∧
      ∀ (r : Nat) (runtime : PhotonRuntime Value Actor Valence), process.runtimes[r]? = some runtime →
        execute runtime.executor.step runtime.executor.start (history.filterMap (ProcessAction.turn_of r)) =
          some runtime.alone := by
  induction history using List.reverseRecOn generalizing process with
  | nil =>
    cases hexecute
    exact ⟨fun _ _ => rfl, by simp⟩
  | append_singleton history action ih =>
    rw [execute_concat] at hexecute
    obtain ⟨before, hbefore, hstep⟩ := Option.bind_eq_some_iff.mp hexecute
    obtain ⟨hnone, halone⟩ := ih hbefore
    have hpooled : before.Pooled := Reachable.pooled (execute_anyStep history hbefore)
    -- an action that is no turn leaves the runtimes there are alone, and may start one
    have hidle : ∀ started : List (PhotonRuntime Value Actor Valence),
        (∀ r, action.turn_of r = none) → process.runtimes = before.runtimes ++ started →
        (∀ runtime ∈ started, runtime.state = runtime.executor.start) →
        (∀ r, process.runtimes.length ≤ r → (history ++ [action]).filterMap (ProcessAction.turn_of r) = []) ∧
          ∀ (r : Nat) (runtime : PhotonRuntime Value Actor Valence), process.runtimes[r]? = some runtime →
            execute runtime.executor.step runtime.executor.start
              ((history ++ [action]).filterMap (ProcessAction.turn_of r)) = some runtime.alone := by
      intro started hturn hruntimes hstarted
      have hsame : ∀ r, (history ++ [action]).filterMap (ProcessAction.turn_of r) =
          history.filterMap (ProcessAction.turn_of r) := by
        intro r
        simp [hturn r]
      refine ⟨fun r hle => ?_, fun r runtime hruntime => ?_⟩
      · rw [hruntimes, List.length_append] at hle
        rw [hsame, hnone r (by omega)]
      · rw [hsame]
        rw [hruntimes] at hruntime
        obtain hold | ⟨hle, hnew⟩ := getElem?_append_cases hruntime
        · exact halone r runtime hold
        · rw [hnone r hle, PhotonRuntime.alone, hstarted runtime (List.mem_of_getElem? hnew)]
          rfl
    cases action with
    | set_process_valence_factory | set_process_system_valence_factory | executor_services =>
      cases hstep
      exact hidle [] (fun _ => rfl) (List.append_nil _).symm (by simp)
    | start_executor executor i =>
      obtain ⟨_, _, _, rfl⟩ := step_start_cases hstep
      exact hidle [⟨executor, i, executor.start⟩] (fun _ => rfl) rfl (by simp)
    | build_photon_runtime executor parts =>
      cases hstep
      cases parts with
      | error => exact hidle [] (fun _ => rfl) (List.append_nil _).symm (by simp)
      | ok => exact hidle [⟨executor, before.services.length, executor.start⟩] (fun _ => rfl) rfl (by simp)
    | run r' action =>
      obtain ⟨running, services, state, hrunning, hservices, hturn, rfl⟩ := step_run_cases hstep
      have hlt := (List.getElem?_eq_some_iff.mp hrunning).1
      have hother : ∀ r, r ≠ r' → (history ++ [ProcessAction.run r' action]).filterMap (ProcessAction.turn_of r) =
          history.filterMap (ProcessAction.turn_of r) := by
        intro r hne
        simp [ProcessAction.turn_of, Ne.symm hne]
      refine ⟨fun r hle => ?_, fun r runtime hruntime => ?_⟩
      · rw [List.length_set] at hle
        rw [hother r (by omega), hnone r hle]
      · obtain ⟨rfl, rfl⟩ | ⟨hne, hold⟩ := getElem?_set_cases hruntime
        · have hown : (history ++ [ProcessAction.run r action]).filterMap (ProcessAction.turn_of r) =
              history.filterMap (ProcessAction.turn_of r) ++ [action] := by
            simp [ProcessAction.turn_of]
          rw [hown, execute_concat, halone r running hrunning]
          exact hpooled.turn_alone hrunning hservices hturn
        · rw [hother r hne]
          exact halone r runtime hold

end Process

/-- The two factory slots hold what a process offered them first, failed boots
included, and `system_valence` builds with the system factory if there is one,
else with the one for dispatch. -/
theorem history_pins_first {Value Actor Valence : Type} {history : List (ProcessAction Value Actor Valence)}
    {process : Process Value Actor Valence} (hexecute : execute Process.step {} history = some process) :
    process.factories.PROCESS_VALENCE_FACTORY.get = history.findSome? ProcessAction.offers ∧
      process.factories.PROCESS_SYSTEM_VALENCE_FACTORY.get = history.findSome? ProcessAction.offers_system ∧
      ∀ (codec : Codec Value Actor) (System : String → Actor) (operation : String),
        process.factories.system_valence codec System operation =
          match (history.findSome? ProcessAction.offers_system).or (history.findSome? ProcessAction.offers) with
          | none => .error "ValenceFactory not installed (call build_photon_runtime first)"
          | some factory => (codec.to_value (System operation)).bind factory.build := by
  obtain ⟨hpinned, hsystem⟩ := Process.execute_slots history hexecute
  have hpinned : process.factories.PROCESS_VALENCE_FACTORY.get = history.findSome? ProcessAction.offers :=
    hpinned.trans Option.none_or
  have hsystem : process.factories.PROCESS_SYSTEM_VALENCE_FACTORY.get =
      history.findSome? ProcessAction.offers_system := hsystem.trans Option.none_or
  refine ⟨hpinned, hsystem, fun codec System operation => ?_⟩
  rw [← hpinned, ← hsystem]
  split
  · rename_i hnone
    simp only [ProcessFactories.system_valence, ProcessFactories.system_factory, hnone]
  · rename_i factory hfactory
    exact ProcessFactories.system_valence_of_factory codec System hfactory operation

/-- One durable handler and a pool of one. -/
def single_executor : Executor ActorJson Actor Actor :=
  Executor.of_inventory { codec := actor_codec, valence_factory := open_factory }
    [orders_handler (some "billing") none .Durable 0] 1

/-- One event is pulled and its dispatch spawned. -/
def pulling_one : List (Action ActorJson) :=
  [.spawn_group, .group 0 (.lookup (.ok none)), .group 0 .subscribe,
    .group 0 (.next (some (.ok (orders_event none 1)))), .group 0 .spawn]

/-- A process that fails to boot, boots and starts another executor on the same
services, which has to wait for the permit that the first one holds. -/
def two_boots : List (ProcessAction ActorJson Actor Actor) :=
  [.build_photon_runtime (factory_executor (ProcessValenceFactory.arc policed_build () "mem")) (.error "no key"),
    .build_photon_runtime single_executor (.ok ()),
    .set_process_system_valence_factory (ProcessValenceFactory.arc_internal policed_build () "mem"),
    .start_executor single_executor 0] ++
  (pulling_one.map (.run 0)) ++ (pulling_one.map (.run 1)) ++
  [.run 0 (.dispatch 0 .acquire), .run 0 (.dispatch 0 .gate)]

theorem history_pins_first_two_boots : ∃ process, execute Process.step {} two_boots = some process ∧
    process.factories.PROCESS_VALENCE_FACTORY.get = two_boots.findSome? ProcessAction.offers := by
  obtain ⟨process, hexecute⟩ : ∃ process, execute Process.step {} two_boots = some process := ⟨_, rfl⟩
  exact ⟨process, hexecute, (history_pins_first hexecute).1⟩

/-- The runtimes of a process are those it started, and they interfere only
through the permits of services that they share. Each is in the state that its
own turns lead it to alone, with a pool of the same size for itself, but that
fewer permits may be free; and of every pool, what is free and what the
dispatches of its runtimes hold is the whole pool. -/
theorem runtimes_share_permits_only {Value Actor Valence : Type} {history : List (ProcessAction Value Actor Valence)}
    {process : Process Value Actor Valence} (hexecute : execute Process.step {} history = some process) :
    process.runtimes.map PhotonRuntime.executor = history.filterMap ProcessAction.starts ∧
      (∀ (r : Nat) (runtime : PhotonRuntime Value Actor Valence), process.runtimes[r]? = some runtime →
        ∃ services free, process.services[runtime.services]? = some services ∧ services.permits ≤ free ∧
          execute runtime.executor.step runtime.executor.start (history.filterMap (ProcessAction.turn_of r)) =
            some (runtime.state.with_permits free)) ∧
      ∀ (i : Nat) (services : ExecutorServices), process.services[i]? = some services →
        services.permits + process.held i = services.worker_pool := by
  have hpooled : process.Pooled := Process.Reachable.pooled (execute_anyStep history hexecute)
  refine ⟨Process.execute_starts history hexecute, fun r runtime hruntime => ?_, hpooled.permits_eq⟩
  obtain ⟨services, hservices, hsize⟩ := hpooled.handed runtime (List.mem_of_getElem? hruntime)
  have hle := hpooled.permits_le hruntime hservices
  exact ⟨services, _, hservices, by omega, (Process.execute_alone history hexecute).2 r runtime hruntime⟩

/-- The second runtime has nothing free of the pool of one. -/
theorem runtimes_share_permits_only_two_boots : ∃ process runtime services free,
    execute Process.step {} two_boots = some process ∧ process.runtimes[1]? = some runtime ∧
    process.services[runtime.services]? = some services ∧ services.permits = 0 ∧
    execute runtime.executor.step runtime.executor.start pulling_one = some (runtime.state.with_permits free) := by
  obtain ⟨process, runtime, services, hexecute, hruntime, hservices, hpermits⟩ : ∃ process runtime services,
      execute Process.step {} two_boots = some process ∧ process.runtimes[1]? = some runtime ∧
        process.services[runtime.services]? = some services ∧ services.permits = 0 := ⟨_, _, _, rfl, rfl, rfl, rfl⟩
  obtain ⟨_, halone, _⟩ := runtimes_share_permits_only hexecute
  obtain ⟨_, free, _, _, hown⟩ := halone 1 runtime hruntime
  exact ⟨process, runtime, services, free, hexecute, hruntime, hservices, hpermits, hown⟩

end photon_valence_identity
