import Mathlib.Logic.Basic

namespace photon_backend

/-- `photon_backend::models::SubscriptionMode`. -/
inductive SubscriptionMode where
  | Durable
  | Ephemeral
deriving DecidableEq, Repr

/-- The members of `instrumentation::FailureReason` this crate reports. -/
inductive FailureReason where
  | IdentityBuild
  | HandlerError
  | CheckpointError
deriving DecidableEq, Repr

/-- A published event, over the type of JSON values. `seq` is the position
Photon assigned to it. -/
structure Event (Value : Type) where
  event_id : String
  topic_name : String
  topic_key : Option String
  seq : Int
  actor_json : Value
  payload_json : Value
deriving DecidableEq, Repr

/-- `delivery::DlqRecordParams`. -/
structure DlqRecordParams where
  event_id : String
  topic_name : String
  topic_key : Option String
  seq : Int
  subscription_name : Option String
  reason : FailureReason
  error : String
deriving DecidableEq, Repr

/-- What `Photon::get_checkpoint_seq` answers: a stored seq, no checkpoint,
or an error. -/
abbrev CheckpointAnswer := Except String (Option Int)

/-- Whether a stream opened with `subscribe(.., after_seq)` delivers an event
that had been published before: from a resume point on, everything past it,
and otherwise nothing. -/
def delivers_retained {Value : Type} (after_seq : Option Int) (ev : Event Value) : Prop :=
  ∃ a, after_seq = some a ∧ a < ev.seq

@[simp] theorem delivers_retained_some {Value : Type} (a : Int) (ev : Event Value) :
    delivers_retained (some a) ev ↔ a < ev.seq := by
  simp [delivers_retained]

@[simp] theorem not_delivers_retained_none {Value : Type} (ev : Event Value) :
    ¬ delivers_retained none ev := by
  simp [delivers_retained]

end photon_backend
