import PhotonValence.Valence.Router

open serde_json

namespace valence

/-- The variants of `valence::Actor` this crate names. -/
inductive Actor where
  | User (user_id : String)
  | System (operation : String)
deriving DecidableEq, Repr

/-- JSON values as far as actors need them: an object with one variant tag
over an object with one field, or `null`. -/
inductive ActorJson where
  | null
  | tagged (variant field value : String)
deriving DecidableEq, Repr, Inhabited

namespace Actor

def to_value : Actor → ActorJson
  | User user_id => .tagged "User" "user_id" user_id
  | System operation => .tagged "System" "operation" operation

def from_value : ActorJson → Except String Actor
  | .tagged variant field value =>
    if variant = "User" ∧ field = "user_id" then .ok (User value)
    else if variant = "System" ∧ field = "operation" then .ok (System value)
    else .error "unknown variant"
  | .null => .error "expected value"

end Actor

namespace ActorJson

/-- The texts between the quotes of the JSON text of a tagged object. -/
def pieces (variant field value : String) : List (List Char) :=
  [['\x7b'], variant.toList, [':', '\x7b'], field.toList, [':'], value.toList, ['\x7d', '\x7d']]

/-- The JSON text of a value. Texts are written without escapes, which is
right for those that hold no quote, backslash or control character. -/
def to_string : ActorJson → String
  | null => "null"
  | tagged variant field value => String.ofList (['\x22'].intercalate (pieces variant field value))

def from_str (text : String) : Except String ActorJson :=
  if text = "null" then .ok null
  else
    match text.toList.splitOn '\x22' with
    | [_, variant, _, field, _, value, _] =>
      let read := tagged (String.ofList variant) (String.ofList field) (String.ofList value)
      if read.to_string = text then .ok read else .error "expected value"
    | _ => .error "expected value"

end ActorJson

/-- No part of the value needs an escape. -/
def ActorJson.plain : ActorJson → Bool
  | null => true
  | tagged variant field value => [variant, field, value].all fun part => '\x22' ∉ part.toList

/-- The codec of actors. -/
def actor_codec : Codec ActorJson Actor where
  from_str := ActorJson.from_str
  to_string := ActorJson.to_string
  from_value := Actor.from_value
  to_value actor := .ok actor.to_value

/-- A factory without an actor policy. Its sessions are told apart by their
actor. -/
def open_factory : ValenceFactory ActorJson Actor where
  build := Actor.from_value

/-- A router factory whose sessions are told apart by their actor, with the
policies it enforces. -/
def policed_build (factory : RouterValenceFactory Unit) (actor_json : ActorJson) : Except String Actor :=
  match Actor.from_value actor_json with
  | .error e => .error e
  | .ok (.User user_id) => .ok (.User user_id)
  | .ok (.System operation) =>
    match factory.config.policy, factory.config.actor_trust with
    | some .RejectExternalSystemActor, .External => .error "System actor rejected on external trust"
    | _, _ => .ok (.System operation)

end valence
