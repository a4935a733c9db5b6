import PhotonValence.Photon.Event

open photon_backend

namespace photon_valence_identity

/-- The function pointer of a registered handler. What the handler does is the
environment's choice, so only its identity is kept. -/
structure HandlerDispatch where
  address : Nat
deriving DecidableEq, Repr

structure HandlerDescriptor where
  topic_name : String
  subscription_name : Option String
  topic_key_filter : Option String
  mode : SubscriptionMode
  dispatch : HandlerDispatch
deriving DecidableEq, Repr

/-- The pair a subscription stream is opened for. -/
abbrev TopicKey := String × Option String

namespace HandlerDescriptor

/-- Whether a handler takes an event, by topic and key filter. -/
def matches_event (self : HandlerDescriptor) (topic_name : String) (topic_key : Option String) : Bool :=
  if self.topic_name ≠ topic_name then false
  else
    match self.topic_key_filter, topic_key with
    | none, _ => true
    | some fk, some ek => fk == ek
    | some _, none => false

/-- The group a descriptor is registered under. -/
def topicKey (self : HandlerDescriptor) : TopicKey := (self.topic_name, self.topic_key_filter)

/-- A handler takes exactly the events of its topic whose key its filter
admits. -/
theorem matches_event_iff (self : HandlerDescriptor) (topic_name : String) (topic_key : Option String) :
    self.matches_event topic_name topic_key = true ↔
      self.topic_name = topic_name ∧ (self.topic_key_filter = none ∨ self.topic_key_filter = topic_key) := by
  unfold matches_event
  by_cases htopic : self.topic_name = topic_name
  · cases hfilter : self.topic_key_filter <;> cases topic_key <;> simp [htopic]
  · simp [htopic]

end HandlerDescriptor

end photon_valence_identity
