import PhotonValence.Register.OnceLock
import PhotonValence.Valence.Factory

open register valence serde_json

namespace photon_valence_identity

/-- The two factory slots of the process. -/
structure ProcessFactories (Value Valence : Type) where
  PROCESS_VALENCE_FACTORY : OnceLock (ValenceFactory Value Valence) := {}
  PROCESS_SYSTEM_VALENCE_FACTORY : OnceLock (ValenceFactory Value Valence) := {}

namespace ProcessFactories

def set_process_valence_factory {Value Valence : Type} (self : ProcessFactories Value Valence)
    (factory : ValenceFactory Value Valence) : ProcessFactories Value Valence :=
  { self with PROCESS_VALENCE_FACTORY := self.PROCESS_VALENCE_FACTORY.set factory }

def set_process_system_valence_factory {Value Valence : Type} (self : ProcessFactories Value Valence)
    (factory : ValenceFactory Value Valence) : ProcessFactories Value Valence :=
  { self with PROCESS_SYSTEM_VALENCE_FACTORY := self.PROCESS_SYSTEM_VALENCE_FACTORY.set factory }

/-- The factory that `system_valence` builds its sessions with. -/
def system_factory {Value Valence : Type} (self : ProcessFactories Value Valence) :
    Option (ValenceFactory Value Valence) :=
  self.PROCESS_SYSTEM_VALENCE_FACTORY.get.or self.PROCESS_VALENCE_FACTORY.get

/-- `system_valence`, given the System variant of the actors. -/
def system_valence {Value Actor Valence : Type} (codec : Codec Value Actor) (System : String → Actor)
    (self : ProcessFactories Value Valence) (operation : String) : Except String Valence :=
  match self.system_factory with
  | none => .error "ValenceFactory not installed (call build_photon_runtime first)"
  | some factory =>
    match codec.to_value (System operation) with
    | .error e => .error e
    | .ok actor_json => factory.build actor_json

theorem system_valence_of_factory {Value Actor Valence : Type} (codec : Codec Value Actor)
    (System : String → Actor) {self : ProcessFactories Value Valence} {factory : ValenceFactory Value Valence}
    (hfactory : self.system_factory = some factory) (operation : String) :
    self.system_valence codec System operation =
      (codec.to_value (System operation)).bind factory.build := by
  rw [system_valence, hfactory]
  cases codec.to_value (System operation) <;> rfl

/-- Without a system factory, `system_valence` builds with the factory pinned
for dispatch. -/
theorem system_factory_eq {Value Valence : Type} {self : ProcessFactories Value Valence}
    (hnone : self.PROCESS_SYSTEM_VALENCE_FACTORY.get = none) :
    self.system_factory = self.PROCESS_VALENCE_FACTORY.get := by
  rw [system_factory, hnone, Option.none_or]

end ProcessFactories

end photon_valence_identity
