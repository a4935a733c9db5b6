import PhotonValence.Valence.Factory

open serde_json

namespace valence

/-- Whether the actor JSON given to a factory comes from clients or from the
platform itself. -/
inductive ActorTrust where
  | External
  | Internal
deriving DecidableEq, Repr

/-- The actor policies this crate names. -/
inductive ActorJsonPolicy where
  | RejectExternalSystemActor
deriving DecidableEq, Repr

/-- The settings of a `RouterValenceFactory` this crate reads or writes. -/
structure RouterValenceFactoryConfig where
  default_backend_key : String
  policy : Option ActorJsonPolicy := none
  actor_trust : ActorTrust := .External

namespace RouterValenceFactoryConfig

def new (default_backend_key : String) : RouterValenceFactoryConfig where
  default_backend_key := default_backend_key

def actor_json_policy (self : RouterValenceFactoryConfig) (policy : ActorJsonPolicy) :
    RouterValenceFactoryConfig :=
  { self with policy := some policy }

end RouterValenceFactoryConfig

/-- A factory over a database router. -/
structure RouterValenceFactory (DatabaseRouter : Type) where
  router : DatabaseRouter
  config : RouterValenceFactoryConfig

def RouterValenceFactory.new {DatabaseRouter : Type} (router : DatabaseRouter)
    (config : RouterValenceFactoryConfig) : RouterValenceFactory DatabaseRouter :=
  ⟨router, config⟩

/-- What is assumed of `RouterValenceFactory::build`: under
`RejectExternalSystemActor` and external trust it refuses every JSON value that
deserializes to a System actor. -/
def RejectsExternalSystem {DatabaseRouter Value Actor Valence : Type} (System : String → Actor)
    (codec : Codec Value Actor)
    (build : RouterValenceFactory DatabaseRouter → Value → Except String Valence) : Prop :=
  ∀ (factory : RouterValenceFactory DatabaseRouter) (actor_json : Value) (operation : String),
    factory.config.policy = some .RejectExternalSystemActor → factory.config.actor_trust = .External →
      codec.from_value actor_json = .ok (System operation) → ∃ e, build factory actor_json = .error e

end valence
