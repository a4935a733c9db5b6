import PhotonValence.Valence.Factory

open valence serde_json

namespace photon_core

inductive IdentityError where
  | InvalidActor (message : String)
deriving DecidableEq, Repr

end photon_core

open photon_core

namespace photon_valence_identity

/-- A `ValenceFactory` as an identity factory of photon. -/
structure ValenceIdentityFactory (Value Valence : Type) where
  inner : ValenceFactory Value Valence

/-- The opaque actor handed to photon. -/
structure ValenceActor where
  label : String
deriving DecidableEq, Repr

namespace ValenceIdentityFactory

def new {Value Valence : Type} (inner : ValenceFactory Value Valence) :
    ValenceIdentityFactory Value Valence := ⟨inner⟩

/-- `reconstruct` with the values it gives to the inner factory on its way. -/
def reconstruct_calls {Value Actor Valence : Type} (codec : Codec Value Actor) (debug : Actor → String)
    (self : ValenceIdentityFactory Value Valence) (actor_json : String) :
    List Value × Except IdentityError ValenceActor :=
  match codec.from_str actor_json with
  | .error e => ([], .error (.InvalidActor e))
  | .ok value =>
    match codec.from_value value with
    | .error e => ([], .error (.InvalidActor e))
    | .ok actor =>
      match self.inner.build value with
      | .error e => ([value], .error (.InvalidActor e))
      | .ok _ => ([value], .ok ⟨debug actor⟩)

end ValenceIdentityFactory

end photon_valence_identity
