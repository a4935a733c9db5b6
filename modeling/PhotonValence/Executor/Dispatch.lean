import PhotonValence.Handler.Descriptor
import PhotonValence.Valence.Factory

open photon_backend valence serde_json

namespace photon_valence_identity.executor

def is_durable_descriptor (mode : SubscriptionMode) : Bool := mode = .Durable

/-- How the future of a handler ends. -/
inductive HandlerEnd where
  | Ok
  | Err (e : String)
  | Panic
deriving DecidableEq, Repr

/-- What all dispatches of an executor share: the conversion of actor JSON and
the factory `start_executor` was given. -/
structure DispatchEnv (Value Actor Valence : Type) where
  codec : Codec Value Actor
  valence_factory : ValenceFactory Value Valence

/-- The arguments of one `dispatch_handler` call besides the shared services. -/
structure DispatchArgs (Value : Type) where
  subscription_name : Option String
  is_durable : Bool
  topic_name : String
  dispatch : HandlerDispatch
  ev : Event Value
deriving DecidableEq

def DispatchArgs.dlq_params {Value : Type} (args : DispatchArgs Value) (reason : FailureReason)
    (error : String) : DlqRecordParams where
  event_id := args.ev.event_id
  topic_name := args.topic_name
  topic_key := args.ev.topic_key
  seq := args.ev.seq
  subscription_name := args.subscription_name
  reason := reason
  error := error

/-- What a dispatch does outside of itself, in order, with the handler's
return. `stored` is whether the DLQ took the record. -/
inductive Effect (Value Valence : Type) where
  | build (actor_json : Value)
  | invoke (dispatch : HandlerDispatch) (valence : Valence) (ev : Event Value)
  | returned (result : HandlerEnd)
  | dlq_record (params : DlqRecordParams) (stored : Bool)
  | coalescer_record (name topic_name : String) (topic_key : Option String) (seq : Int)
  | record_drain (topic_name name : String)
  | record_handler_failure (topic_name : String) (reason : FailureReason)

/-- What the handler and the services answer to one dispatch. -/
structure DispatchAnswers where
  handler : HandlerEnd
  dlq : Bool
  coalescer : Bool

def shape_error (e : String) : String := "actor_json is not a valid valence::Actor: " ++ e

/-- The body of `dispatch_handler` once it has its permit: the effects of one
undisturbed call. -/
def dispatch_handler {Value Actor Valence : Type} (env : DispatchEnv Value Actor Valence)
    (args : DispatchArgs Value) (answers : DispatchAnswers) : List (Effect Value Valence) :=
  match env.codec.from_value args.ev.actor_json with
  | .error e => [.dlq_record (args.dlq_params .IdentityBuild (shape_error e)) answers.dlq]
  | .ok _ =>
    .build args.ev.actor_json ::
    match env.valence_factory.build args.ev.actor_json with
    | .error e => [.dlq_record (args.dlq_params .IdentityBuild e) answers.dlq]
    | .ok valence =>
      .invoke args.dispatch valence args.ev :: .returned answers.handler ::
      match answers.handler with
      | .Panic => []
      | .Err e => [.dlq_record (args.dlq_params .HandlerError e) answers.dlq]
      | .Ok =>
        if args.is_durable then
          match args.subscription_name with
          | none => []
          | some name =>
            [.coalescer_record name args.topic_name args.ev.topic_key args.ev.seq,
              if answers.coalescer then .record_drain args.topic_name name
              else .record_handler_failure args.topic_name .CheckpointError]
        else []

section

variable {Value Actor Valence : Type} {env : DispatchEnv Value Actor Valence} {args : DispatchArgs Value}

theorem dispatch_handler_of_shape {e : String}
    (hshape : env.codec.from_value args.ev.actor_json = .error e) (answers : DispatchAnswers) :
    dispatch_handler env args answers =
      [.dlq_record (args.dlq_params .IdentityBuild (shape_error e)) answers.dlq] := by
  simp [dispatch_handler, hshape]

theorem dispatch_handler_of_build {actor : Actor} {e : String}
    (hshape : env.codec.from_value args.ev.actor_json = .ok actor)
    (hbuild : env.valence_factory.build args.ev.actor_json = .error e) (answers : DispatchAnswers) :
    dispatch_handler env args answers =
      [.build args.ev.actor_json, .dlq_record (args.dlq_params .IdentityBuild e) answers.dlq] := by
  simp [dispatch_handler, hshape, hbuild]

end

/-- Where a dispatch task stands. From `gate` to `recording` it holds a worker
permit; the last three are the ways it can end. -/
inductive Pc (Valence : Type) where
  | acquire
  | gate
  | build
  | invoke (valence : Valence)
  | running (valence : Valence)
  | dead_letter (reason : FailureReason) (error : String)
  | checkpoint (name : String)
  | recording (name : String)
  | succeeded
  | dead_lettered (reason : FailureReason) (stored : Bool)
  | panicked

/-- One turn of a dispatch task, with what the environment answers in it. -/
inductive Turn where
  | acquire
  | gate
  | build
  | invoke
  | returned (result : HandlerEnd)
  | dlq_record (stored : Bool)
  | coalescer_record
  | recorded (ok : Bool)
deriving DecidableEq, Repr

/-- The turn gets what the handler and the services answer. -/
def Turn.Gets (answers : DispatchAnswers) : Turn → Prop
  | .returned result => result = answers.handler
  | .dlq_record stored => stored = answers.dlq
  | .recorded ok => ok = answers.coalescer
  | _ => True

/-- The effect shows the answers the dispatch got. -/
def Effect.Agrees {Value Valence : Type} (answers : DispatchAnswers) : Effect Value Valence → Prop
  | .returned result => result = answers.handler
  | .dlq_record _ stored => stored = answers.dlq
  | .record_drain _ _ => answers.coalescer = true
  | .record_handler_failure _ _ => answers.coalescer = false
  | _ => True

/-- `dispatch_handler` cut at the points where other tasks can be seen to run.
`dlq.record` and the return after it are one turn, for nothing is awaited
between them. -/
def dispatch_step {Value Actor Valence : Type} (env : DispatchEnv Value Actor Valence)
    (args : DispatchArgs Value) : Pc Valence → Turn → Option (Pc Valence × List (Effect Value Valence))
  | .acquire, .acquire => some (.gate, [])
  | .gate, .gate =>
    match env.codec.from_value args.ev.actor_json with
    | .error e => some (.dead_letter .IdentityBuild (shape_error e), [])
    | .ok _ => some (.build, [])
  | .build, .build =>
    match env.valence_factory.build args.ev.actor_json with
    | .error e => some (.dead_letter .IdentityBuild e, [.build args.ev.actor_json])
    | .ok valence => some (.invoke valence, [.build args.ev.actor_json])
  | .invoke valence, .invoke => some (.running valence, [.invoke args.dispatch valence args.ev])
  | .running _, .returned .Panic => some (.panicked, [.returned .Panic])
  | .running _, .returned (.Err e) => some (.dead_letter .HandlerError e, [.returned (.Err e)])
  | .running _, .returned .Ok =>
    match args.is_durable, args.subscription_name with
    | true, some name => some (.checkpoint name, [.returned .Ok])
    | _, _ => some (.succeeded, [.returned .Ok])
  | .dead_letter reason error, .dlq_record stored =>
    some (.dead_lettered reason stored, [.dlq_record (args.dlq_params reason error) stored])
  | .checkpoint name, .coalescer_record =>
    some (.recording name, [.coalescer_record name args.topic_name args.ev.topic_key args.ev.seq])
  | .recording name, .recorded true => some (.succeeded, [.record_drain args.topic_name name])
  | .recording _, .recorded false =>
    some (.succeeded, [.record_handler_failure args.topic_name .CheckpointError])
  | _, _ => none

namespace Pc

/-- The permit is taken before the gate and dropped when the task ends. -/
def holds_permit {Valence : Type} : Pc Valence → Bool
  | .acquire | .succeeded | .dead_lettered _ _ | .panicked => false
  | _ => true

def ended {Valence : Type} : Pc Valence → Bool
  | .succeeded | .dead_lettered _ _ | .panicked => true
  | _ => false

/-- The handler has returned Ok. -/
def returned_ok {Valence : Type} : Pc Valence → Bool
  | .checkpoint _ | .recording _ | .succeeded => true
  | _ => false

/-- The dispatch has made its checkpoint call, if it has one to make. -/
def recorded {Valence : Type} : Pc Valence → Bool
  | .recording _ | .succeeded => true
  | _ => false

/-- The dispatch failed: at the shape gate, in the factory or in the handler. -/
def failed {Valence : Type} : Pc Valence → Bool
  | .dead_letter _ _ | .dead_lettered _ _ => true
  | _ => false

/-- The dispatch has returned Ok or its event is in the DLQ. -/
def settled {Valence : Type} : Pc Valence → Bool
  | .checkpoint _ | .recording _ | .succeeded => true
  | .dead_lettered _ stored => stored
  | _ => false

theorem returned_ok_of_recorded {Valence : Type} {pc : Pc Valence} (hrecorded : pc.recorded = true) :
    pc.returned_ok = true := by
  cases pc <;> first | rfl | cases hrecorded

theorem settled_of_returned_ok {Valence : Type} {pc : Pc Valence} (hreturned : pc.returned_ok = true) :
    pc.settled = true := by
  cases pc <;> first | rfl | cases hreturned

end Pc

/-- The turns that are taken, one constructor for each way a turn can go. -/
inductive Moves {Value Actor Valence : Type} (env : DispatchEnv Value Actor Valence)
    (args : DispatchArgs Value) : Pc Valence → Turn → Pc Valence → List (Effect Value Valence) → Prop where
  | acquire : Moves env args .acquire .acquire .gate []
  | refuse {e : String} (hshape : env.codec.from_value args.ev.actor_json = .error e) :
      Moves env args .gate .gate (.dead_letter .IdentityBuild (shape_error e)) []
  | pass {actor : Actor} (hshape : env.codec.from_value args.ev.actor_json = .ok actor) :
      Moves env args .gate .gate .build []
  | no_session {e : String} (hbuild : env.valence_factory.build args.ev.actor_json = .error e) :
      Moves env args .build .build (.dead_letter .IdentityBuild e) [.build args.ev.actor_json]
  | session {valence : Valence} (hbuild : env.valence_factory.build args.ev.actor_json = .ok valence) :
      Moves env args .build .build (.invoke valence) [.build args.ev.actor_json]
  | invoke (valence : Valence) :
      Moves env args (.invoke valence) .invoke (.running valence) [.invoke args.dispatch valence args.ev]
  | panic (valence : Valence) :
      Moves env args (.running valence) (.returned .Panic) .panicked [.returned .Panic]
  | err (valence : Valence) (e : String) :
      Moves env args (.running valence) (.returned (.Err e)) (.dead_letter .HandlerError e)
        [.returned (.Err e)]
  | ok_durable (valence : Valence) {name : String} (hdurable : args.is_durable = true)
      (hname : args.subscription_name = some name) :
      Moves env args (.running valence) (.returned .Ok) (.checkpoint name) [.returned .Ok]
  | ok_plain (valence : Valence) (hplain : args.is_durable = false ∨ args.subscription_name = none) :
      Moves env args (.running valence) (.returned .Ok) .succeeded [.returned .Ok]
  | dlq_record (reason : FailureReason) (error : String) (stored : Bool) :
      Moves env args (.dead_letter reason error) (.dlq_record stored) (.dead_lettered reason stored)
        [.dlq_record (args.dlq_params reason error) stored]
  | coalescer_record (name : String) :
      Moves env args (.checkpoint name) .coalescer_record (.recording name)
        [.coalescer_record name args.topic_name args.ev.topic_key args.ev.seq]
  | drain (name : String) :
      Moves env args (.recording name) (.recorded true) .succeeded [.record_drain args.topic_name name]
  | no_drain (name : String) :
      Moves env args (.recording name) (.recorded false) .succeeded
        [.record_handler_failure args.topic_name .CheckpointError]

/-- Inversion of a turn: it is one of the listed moves. -/
theorem moves_of_dispatch_step {Value Actor Valence : Type} {env : DispatchEnv Value Actor Valence}
    {args : DispatchArgs Value} {pc pc' : Pc Valence} {turn : Turn} {effects : List (Effect Value Valence)}
    (hstep : dispatch_step env args pc turn = some (pc', effects)) : Moves env args pc turn pc' effects := by
  unfold dispatch_step at hstep
  split at hstep
  · cases hstep
    exact .acquire
  · cases hshape : env.codec.from_value args.ev.actor_json with
    | error e =>
      simp only [hshape] at hstep
      cases hstep
      exact .refuse hshape
    | ok actor =>
      simp only [hshape] at hstep
      cases hstep
      exact .pass hshape
  · cases hbuild : env.valence_factory.build args.ev.actor_json with
    | error e =>
      simp only [hbuild] at hstep
      cases hstep
      exact .no_session hbuild
    | ok valence =>
      simp only [hbuild] at hstep
      cases hstep
      exact .session hbuild
  · cases hstep
    exact .invoke _
  · cases hstep
    exact .panic _
  · cases hstep
    exact .err _ _
  · cases hdurable : args.is_durable with
    | false =>
      simp only [hdurable] at hstep
      cases hstep
      exact .ok_plain _ (.inl hdurable)
    | true =>
      cases hname : args.subscription_name with
      | none =>
        simp only [hdurable, hname] at hstep
        cases hstep
        exact .ok_plain _ (.inr hname)
      | some name =>
        simp only [hdurable, hname] at hstep
        cases hstep
        exact .ok_durable _ hdurable hname
  · cases hstep
    exact .dlq_record _ _ _
  · cases hstep
    exact .coalescer_record _
  · cases hstep
    exact .drain _
  · cases hstep
    exact .no_drain _
  · cases hstep

/-- Every listed move of a dispatch is one that it takes. -/
theorem Moves.step_eq {Value Actor Valence : Type} {env : DispatchEnv Value Actor Valence}
    {args : DispatchArgs Value} {pc pc' : Pc Valence} {turn : Turn} {effects : List (Effect Value Valence)}
    (hmoves : Moves env args pc turn pc' effects) : dispatch_step env args pc turn = some (pc', effects) := by
  cases hmoves with
  | refuse hshape | pass hshape => simp [dispatch_step, hshape]
  | no_session hbuild | session hbuild => simp [dispatch_step, hbuild]
  | ok_durable _ hdurable hname => simp [dispatch_step, hdurable, hname]
  | ok_plain _ hplain => obtain hplain | hplain := hplain <;> simp [dispatch_step, hplain]
  | _ => rfl

/-- The effects of a turn show the answers it got. -/
theorem Moves.agrees {Value Actor Valence : Type} {env : DispatchEnv Value Actor Valence}
    {args : DispatchArgs Value} {pc pc' : Pc Valence} {turn : Turn} {effects : List (Effect Value Valence)}
    {answers : DispatchAnswers} (hmoves : Moves env args pc turn pc' effects)
    (hgets : turn.Gets answers) : ∀ effect ∈ effects, effect.Agrees answers := by
  intro effect heffect
  cases hmoves with
  | panic | err | ok_durable | ok_plain | dlq_record =>
    cases List.mem_singleton.mp heffect
    exact hgets
  | drain | no_drain =>
    cases List.mem_singleton.mp heffect
    exact hgets.symm
  | acquire | refuse | pass => cases heffect
  | no_session | session | invoke | coalescer_record =>
    cases List.mem_singleton.mp heffect
    trivial

end photon_valence_identity.executor
