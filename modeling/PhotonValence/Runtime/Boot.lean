import PhotonValence.Executor.Inventory
import PhotonValence.Executor.Pairs
import PhotonValence.Identity.ProcessFactory
import PhotonValence.Runtime.Pool

open photon_backend register valence serde_json transition slots

namespace photon_valence_identity

open executor

/-- No runtime is built. -/
def NoBuild {Value Actor Valence : Type} (_ : Process Value Actor Valence) :
    ProcessAction Value Actor Valence → Prop
  | .build_photon_runtime _ _ => False
  | _ => True

/-- The runtime built with an executor and `system_valence` use one factory: in
all later states the executor hands its handlers sessions of its own factory,
and `system_valence` builds with that factory until a system factory is
installed or another runtime is built. -/
structure OneFactory {Value Actor Valence : Type} (process : Process Value Actor Valence)
    (executor : Executor Value Actor Valence) : Prop where
  dispatched : ∀ later, Steps Process.step anyStep (process.build_photon_runtime executor (.ok ())).1 later →
    ∃ runtime, later.runtimes[process.runtimes.length]? = some runtime ∧ runtime.executor = executor ∧
      ∀ (i : Nat) (dispatch : HandlerDispatch) (valence : Valence) (ev : Event Value),
        (i, .invoke dispatch valence ev) ∈ runtime.state.trace →
          executor.valence_factory.build ev.actor_json = .ok valence
  system : ∀ later, Steps Process.step NoBuild (process.build_photon_runtime executor (.ok ())).1 later →
    later.factories.PROCESS_SYSTEM_VALENCE_FACTORY.get = none →
    later.factories.system_factory = some executor.valence_factory

/-- The call pins its factory, or leaves the one that is pinned. -/
theorem Process.build_pins {Value Actor Valence : Type} (self : Process Value Actor Valence)
    (executor : Executor Value Actor Valence) (parts : Except String Unit) :
    (self.build_photon_runtime executor parts).1.factories.PROCESS_VALENCE_FACTORY.get =
        some (self.factories.PROCESS_VALENCE_FACTORY.get.getD executor.valence_factory) ∧
      (self.build_photon_runtime executor parts).1.factories.PROCESS_SYSTEM_VALENCE_FACTORY.get =
        self.factories.PROCESS_SYSTEM_VALENCE_FACTORY.get := by
  cases parts <;>
    simp [Process.build_photon_runtime, Process.start_executor, Process.executor_services,
      ProcessFactories.set_process_valence_factory]

/-- The factory of a built runtime and that of `system_valence` are one and the
same exactly if none or the same one had been pinned before, or a system
factory makes `system_valence` no matter of the pinned one. -/
theorem one_factory_iff {Value Actor Valence : Type} (self : Process Value Actor Valence)
    (executor : Executor Value Actor Valence) :
    OneFactory self executor ↔
      self.factories.PROCESS_VALENCE_FACTORY.get = none ∨
      self.factories.PROCESS_VALENCE_FACTORY.get = some executor.valence_factory ∨
      self.factories.PROCESS_SYSTEM_VALENCE_FACTORY.get ≠ none := by
  obtain ⟨hpinned, hsystem⟩ := self.build_pins executor (.ok ())
  constructor
  · intro hone
    by_contra hneither
    simp only [not_or, not_not] at hneither
    obtain ⟨hfilled, hother, hnone⟩ := hneither
    obtain ⟨factory, hfactory⟩ := Option.ne_none_iff_exists'.mp hfilled
    have hbuilds := hone.system _ (.refl _) (hsystem.trans hnone)
    rw [ProcessFactories.system_factory_eq (hsystem.trans hnone), hpinned, hfactory, Option.getD_some] at hbuilds
    exact hother (hfactory.trans hbuilds)
  · intro hcondition
    constructor
    · intro later hrun
      have hfresh : (self.build_photon_runtime executor (.ok ())).1.runtimes[self.runtimes.length]? =
          some ⟨executor, self.services.length, executor.start⟩ := List.getElem?_concat_length
      obtain ⟨state, hstate, _, hsound⟩ := Process.started hrun hfresh ⟨_, Executor.sound_start executor⟩
      refine ⟨_, hstate, rfl, fun i dispatch valence ev hmem => ?_⟩
      obtain ⟨_, _, _, rfl, hsession⟩ := hsound.invoke_mem hmem
      exact hsession.build
    · intro later hrun hnone
      have hkept : later.factories.PROCESS_VALENCE_FACTORY.get =
          some (self.factories.PROCESS_VALENCE_FACTORY.get.getD executor.valence_factory) :=
        Process.pinned hrun hpinned
      rw [ProcessFactories.system_factory_eq hnone, hkept]
      obtain hempty | hsame | hfilled := hcondition
      · rw [hempty, Option.getD_none]
      · rw [hsame, Option.getD_some]
      · obtain ⟨factory, hfactory⟩ := Option.ne_none_iff_exists'.mp hfilled
        have hstill := Process.installed hrun (hsystem.trans hfactory)
        rw [hnone] at hstill
        cases hstill

/-- One durable handler, dispatched with sessions of the factory. -/
def factory_executor (valence_factory : ValenceFactory ActorJson Actor) : Executor ActorJson Actor Actor :=
  Executor.of_inventory { codec := actor_codec, valence_factory } [orders_handler (some "billing") none .Durable 0] 2

/-- A process in which a factory without an actor policy has been pinned. -/
def pinned_open : Process ActorJson Actor Actor :=
  (execute Process.step {} [.set_process_valence_factory open_factory]).get rfl

/-- A runtime with external trust is built after another factory was pinned:
`system_valence` mints a System session that the runtime's factory refuses. -/
theorem pinned_factory_outlives_build :
    pinned_open.Reachable ∧
      ¬ OneFactory pinned_open (factory_executor (ProcessValenceFactory.arc policed_build () "mem")) := by
  refine ⟨execute_anyStep _ (Option.some_get _).symm, fun hone => ?_⟩
  have hfactory := hone.system _ (.refl _) rfl
  have hbuilds : (Except.ok (.System "probe") : Except String Actor) =
      (actor_codec.to_value (Actor.System "probe")).bind (ProcessValenceFactory.arc policed_build () "mem").build :=
    ProcessFactories.system_valence_of_factory actor_codec Actor.System hfactory "probe"
  cases hbuilds

/-- A failed `build_photon_runtime` leaves no trace: both factory slots and what
`system_valence` answers are as before, and whatever the process does next goes
as if the call had not been made. -/
structure LeavesNoTrace {Value Actor Valence : Type} (process : Process Value Actor Valence)
    (executor : Executor Value Actor Valence) (e : String) : Prop where
  factories_eq : (process.build_photon_runtime executor (.error e)).1.factories = process.factories
  system_valence_eq : ∀ (codec : Codec Value Actor) (System : String → Actor) (operation : String),
    (process.build_photon_runtime executor (.error e)).1.factories.system_valence codec System operation =
      process.factories.system_valence codec System operation
  retry_eq : ∀ actions : List (ProcessAction Value Actor Valence),
    execute Process.step (process.build_photon_runtime executor (.error e)).1 actions =
      execute Process.step process actions

/-- A failed boot leaves no trace exactly if a factory had been pinned before
it; otherwise it pins its own. -/
theorem failed_boot_leaves_no_trace_iff {Value Actor Valence : Type} (self : Process Value Actor Valence)
    (executor : Executor Value Actor Valence) (e : String) :
    LeavesNoTrace self executor e ↔ self.factories.PROCESS_VALENCE_FACTORY.get ≠ none := by
  constructor
  · intro htrace hempty
    have hpinned := (self.build_pins executor (.error e)).1
    rw [htrace.factories_eq, hempty] at hpinned
    cases hpinned
  · intro hfilled
    obtain ⟨factory, hfactory⟩ := Option.ne_none_iff_exists'.mp hfilled
    have hsame : (self.build_photon_runtime executor (.error e)).1 = self := by
      simp only [Process.build_photon_runtime, ProcessFactories.set_process_valence_factory,
        OnceLock.set_of_get hfactory]
    exact ⟨by rw [hsame], fun _ _ _ => by rw [hsame], fun _ => by rw [hsame]⟩

/-- The first boot of a process fails, with a factory without an actor policy;
a second one with external trust succeeds. -/
def failed_then_retried : Process ActorJson Actor Actor :=
  (execute Process.step {} [.build_photon_runtime (factory_executor open_factory) (.error "PHOTON_TRANSPORT_KEY"),
    .build_photon_runtime (factory_executor (ProcessValenceFactory.arc policed_build () "mem")) (.ok ())]).get rfl

/-- The process in which only the second boot was made. -/
def booted_once : Process ActorJson Actor Actor :=
  (execute Process.step {} [.build_photon_runtime
    (factory_executor (ProcessValenceFactory.arc policed_build () "mem")) (.ok ())]).get rfl

/-- After the failed boot `system_valence` mints System sessions, which the
runtime built in the end refuses. -/
theorem failed_boot_pins :
    ¬ LeavesNoTrace ({} : Process ActorJson Actor Actor) (factory_executor open_factory) "PHOTON_TRANSPORT_KEY" ∧
      failed_then_retried.factories.system_valence actor_codec Actor.System "probe" = .ok (.System "probe") ∧
      booted_once.factories.system_valence actor_codec Actor.System "probe" =
        .error "System actor rejected on external trust" := by
  refine ⟨fun htrace => ?_, rfl, rfl⟩
  have hpinned := htrace.system_valence_eq actor_codec Actor.System "probe"
  cases hpinned

end photon_valence_identity
