import PhotonValence.Executor.Inventory
import PhotonValence.Identity.ProcessFactory
import PhotonValence.Identity.Reconstruct
import PhotonValence.Runtime.Pool

open photon_backend photon_core valence serde_json transition

namespace photon_valence_identity

open executor

/-- Actor JSON that is System-shaped or not a valid actor at all. -/
def Refused {Value Actor : Type} (System : String → Actor) (codec : Codec Value Actor)
    (actor_json : Value) : Prop :=
  ∀ actor, codec.from_value actor_json = .ok actor → ∃ operation, actor = System operation

/-- Refused actor JSON gets no session from a factory with external trust. -/
theorem Refused.no_session {DatabaseRouter Value Actor Valence : Type}
    {router_build : RouterValenceFactory DatabaseRouter → Value → Except String Valence}
    {System : String → Actor} {env : DispatchEnv Value Actor Valence} {router : DatabaseRouter}
    {default_backend_key : String} {args : DispatchArgs Value}
    (hrejects : RejectsExternalSystem System env.codec router_build)
    (hfactory : env.valence_factory = ProcessValenceFactory.arc router_build router default_backend_key)
    (hrefused : Refused System env.codec args.ev.actor_json) : ∀ valence, ¬ Session env args valence := by
  rintro valence ⟨⟨actor, hshape⟩, hbuild⟩
  obtain ⟨operation, rfl⟩ := hrefused actor hshape
  obtain ⟨e, he⟩ := ProcessValenceFactory.arc_refuses_system hrejects router default_backend_key hshape
  rw [hfactory, he] at hbuild
  cases hbuild

end photon_valence_identity
