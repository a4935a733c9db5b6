import PhotonValence.Executor.Inventory
import PhotonValence.Executor.Outcome
import PhotonValence.Identity.Reconstruct

open photon_backend photon_core valence serde_json

namespace photon_valence_identity

open executor

/-- The stages that can refuse the identity of an event. -/
inductive Stage where
  | shape
  | build
deriving DecidableEq, Repr

namespace Stage

/-- The values the factory has been called with when the stage refuses. -/
def calls {Value : Type} (actor_json : Value) : Stage → List Value
  | shape => []
  | build => [actor_json]

/-- The error of a stage as the DLQ gets it. -/
def dlq_error (e : String) : Stage → String
  | shape => shape_error e
  | build => e

end Stage

/-- The value an effect asks the factory a session for. -/
def executor.Effect.built {Value Valence : Type} : Effect Value Valence → Option Value
  | .build actor_json => some actor_json
  | _ => none

/-- A stage refuses the value, with its own error. -/
inductive Refusal {Value Actor Valence : Type} (env : DispatchEnv Value Actor Valence) (actor_json : Value) :
    Stage → String → Prop where
  | shape {e : String} (hshape : env.codec.from_value actor_json = .error e) : Refusal env actor_json .shape e
  | build {actor : Actor} {e : String} (hshape : env.codec.from_value actor_json = .ok actor)
      (hbuild : env.valence_factory.build actor_json = .error e) : Refusal env actor_json .build e

/-- The effects of a dispatch whose identity is refused. -/
def refused_log {Value Valence : Type} (args : DispatchArgs Value) (answers : DispatchAnswers) (stage : Stage)
    (e : String) : List (Effect Value Valence) :=
  (stage.calls args.ev.actor_json).map .build ++
    [.dlq_record (args.dlq_params .IdentityBuild (stage.dlq_error e)) answers.dlq]

section

variable {Value Actor Valence : Type} {env : DispatchEnv Value Actor Valence} {args : DispatchArgs Value}
  {answers : DispatchAnswers}

theorem Refusal.reconstruct_calls {actor_json : Value} {stage : Stage} {e text : String}
    (hrefusal : Refusal env actor_json stage e) (htext : env.codec.from_str text = .ok actor_json)
    (debug : Actor → String) :
    (ValenceIdentityFactory.new env.valence_factory).reconstruct_calls env.codec debug text =
      (stage.calls actor_json, .error (.InvalidActor e)) := by
  cases hrefusal with
  | shape hshape => simp [ValenceIdentityFactory.reconstruct_calls, htext, hshape, Stage.calls]
  | build hshape hbuild =>
    simp [ValenceIdentityFactory.reconstruct_calls, ValenceIdentityFactory.new, htext, hshape, hbuild, Stage.calls]

theorem Refusal.dispatch_handler_eq {stage : Stage} {e : String}
    (hrefusal : Refusal env args.ev.actor_json stage e) (answers : DispatchAnswers) :
    dispatch_handler env args answers = refused_log args answers stage e := by
  cases hrefusal with
  | shape hshape => exact dispatch_handler_of_shape hshape answers
  | build hshape hbuild => exact dispatch_handler_of_build hshape hbuild answers

theorem executor.Session.reconstruct_calls {valence : Valence} {text : String} (hsession : Session env args valence)
    (htext : env.codec.from_str text = .ok args.ev.actor_json) (debug : Actor → String) :
    ∃ actor, (ValenceIdentityFactory.new env.valence_factory).reconstruct_calls env.codec debug text =
      ([args.ev.actor_json], .ok ⟨debug actor⟩) := by
  obtain ⟨⟨actor, hshape⟩, hbuild⟩ := hsession
  exact ⟨actor, by
    simp [ValenceIdentityFactory.reconstruct_calls, ValenceIdentityFactory.new, htext, hshape, hbuild]⟩

end

section

variable {Value Actor Valence : Type} {env : DispatchEnv Value Actor Valence} {args : DispatchArgs Value}
  {answers : DispatchAnswers}

end

end photon_valence_identity
