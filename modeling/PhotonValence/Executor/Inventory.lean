import PhotonValence.Executor.State
import PhotonValence.Valence.Actor

open photon_backend valence

namespace photon_valence_identity.executor

/-- The executor `start_executor` sets up for an inventory of descriptors, when
the hash index yields its keys in the order of their last registration. -/
def Executor.of_inventory {Value Actor Valence : Type} (env : DispatchEnv Value Actor Valence)
    (inventory : List HandlerDescriptor) (worker_pool : Nat) : Executor Value Actor Valence where
  toDispatchEnv := env
  registry := HandlerRegistry.auto_discover inventory
  keys := (HandlerRegistry.auto_discover inventory).topic_subscription_keys
  keys_perm := .refl _
  worker_pool := worker_pool

/-- Dispatch with a factory that has no actor policy. -/
def open_env : DispatchEnv ActorJson Actor Actor where
  codec := actor_codec
  valence_factory := open_factory

/-- A handler of the topic `orders`. -/
def orders_handler (name filter : Option String) (mode : SubscriptionMode) (address : Nat) :
    HandlerDescriptor where
  topic_name := "orders"
  subscription_name := name
  topic_key_filter := filter
  mode := mode
  dispatch := ⟨address⟩

/-- An event of the topic `orders`, published by a user. -/
def orders_event (key : Option String) (seq : Int) : Event ActorJson where
  event_id := "event"
  topic_name := "orders"
  topic_key := key
  seq := seq
  actor_json := (Actor.User "u1").to_value
  payload_json := .null

/-- One durable handler, with room for two dispatches at a time. -/
def billing_executor : Executor ActorJson Actor Actor :=
  Executor.of_inventory open_env [orders_handler (some "billing") none .Durable 0] 2

/-- A durable and an ephemeral handler of one topic. -/
def mixed_executor : Executor ActorJson Actor Actor :=
  Executor.of_inventory open_env
    [orders_handler (some "billing") none .Durable 0, orders_handler (some "audit") none .Ephemeral 1] 2

end photon_valence_identity.executor
