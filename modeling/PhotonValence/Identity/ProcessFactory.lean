import PhotonValence.Valence.Router

open valence

namespace photon_valence_identity

def router_config_reject_external_system (default_backend_key : String) : RouterValenceFactoryConfig :=
  (RouterValenceFactoryConfig.new default_backend_key).actor_json_policy .RejectExternalSystemActor

/-- The factory over the router of the process. -/
structure ProcessValenceFactory (DatabaseRouter : Type) where
  inner : RouterValenceFactory DatabaseRouter

namespace ProcessValenceFactory

def new {DatabaseRouter : Type} (router : DatabaseRouter) (default_backend_key : String) :
    ProcessValenceFactory DatabaseRouter where
  inner := RouterValenceFactory.new router (router_config_reject_external_system default_backend_key)

def new_internal {DatabaseRouter : Type} (router : DatabaseRouter) (default_backend_key : String) :
    ProcessValenceFactory DatabaseRouter where
  inner := RouterValenceFactory.new router
    { router_config_reject_external_system default_backend_key with actor_trust := .Internal }

variable {DatabaseRouter Value Valence : Type}
  (router_build : RouterValenceFactory DatabaseRouter → Value → Except String Valence)

/-- `impl ValenceFactory for ProcessValenceFactory`, over the `build` of the
router factory. -/
def build (self : ProcessValenceFactory DatabaseRouter) (actor_json : Value) : Except String Valence :=
  router_build self.inner actor_json

def arc (router : DatabaseRouter) (default_backend_key : String) : ValenceFactory Value Valence where
  build := (new router default_backend_key).build router_build

def arc_internal (router : DatabaseRouter) (default_backend_key : String) :
    ValenceFactory Value Valence where
  build := (new_internal router default_backend_key).build router_build

end ProcessValenceFactory

/-- A factory with external trust builds no session for a System actor. -/
theorem ProcessValenceFactory.arc_refuses_system {DatabaseRouter Value Actor Valence : Type}
    {router_build : RouterValenceFactory DatabaseRouter → Value → Except String Valence}
    {System : String → Actor} {codec : serde_json.Codec Value Actor} {actor_json : Value} {operation : String}
    (hrejects : RejectsExternalSystem System codec router_build) (router : DatabaseRouter)
    (default_backend_key : String) (hsystem : codec.from_value actor_json = .ok (System operation)) :
    ∃ e, (arc router_build router default_backend_key).build actor_json = .error e :=
  hrejects (new router default_backend_key).inner actor_json operation rfl rfl hsystem

end photon_valence_identity
