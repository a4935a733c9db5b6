import Mathlib.Data.List.Basic
import PhotonValence.Executor.Dispatch

open photon_backend valence serde_json

namespace photon_valence_identity.executor

/-- The session a dispatch runs its handler with: the event's own actor JSON
passed the shape gate and the factory built the session from it. -/
structure Session {Value Actor Valence : Type} (env : DispatchEnv Value Actor Valence)
    (args : DispatchArgs Value) (valence : Valence) : Prop where
  shape : ∃ actor, env.codec.from_value args.ev.actor_json = .ok actor
  build : env.valence_factory.build args.ev.actor_json = .ok valence

/-- A dispatch gets a session unless the shape gate or the factory refuses. -/
theorem session_or_refused {Value Actor Valence : Type} (env : DispatchEnv Value Actor Valence)
    (args : DispatchArgs Value) :
    (∃ valence, Session env args valence) ∨ (∃ e, env.codec.from_value args.ev.actor_json = .error e) ∨
      ∃ actor e, env.codec.from_value args.ev.actor_json = .ok actor ∧
        env.valence_factory.build args.ev.actor_json = .error e := by
  cases hshape : env.codec.from_value args.ev.actor_json with
  | error e => exact .inr (.inl ⟨e, rfl⟩)
  | ok actor =>
    cases hbuild : env.valence_factory.build args.ev.actor_json with
    | error e => exact .inr (.inr ⟨actor, e, rfl, rfl⟩)
    | ok valence => exact .inl ⟨valence, ⟨actor, hshape⟩, hbuild⟩

/-- The three ways a dispatch fails, with the effects it had until then. -/
inductive Failure {Value Actor Valence : Type} (env : DispatchEnv Value Actor Valence)
    (args : DispatchArgs Value) : FailureReason → String → List (Effect Value Valence) → Prop where
  | shape {e : String} (hshape : env.codec.from_value args.ev.actor_json = .error e) :
      Failure env args .IdentityBuild (shape_error e) []
  | session {actor : Actor} {e : String} (hshape : env.codec.from_value args.ev.actor_json = .ok actor)
      (hbuild : env.valence_factory.build args.ev.actor_json = .error e) :
      Failure env args .IdentityBuild e [.build args.ev.actor_json]
  | handler {valence : Valence} {e : String} (hsession : Session env args valence) :
      Failure env args .HandlerError e
        [.build args.ev.actor_json, .invoke args.dispatch valence args.ev, .returned (.Err e)]

/-- The effects of a dispatch up to its handler's Ok. -/
def handled {Value Valence : Type} (args : DispatchArgs Value) (valence : Valence) :
    List (Effect Value Valence) :=
  [.build args.ev.actor_json, .invoke args.dispatch valence args.ev, .returned .Ok]

/-- The effects a dispatch task has had when it stands at a control point,
together with what its way there tells about the event. -/
inductive Ledger {Value Actor Valence : Type} (env : DispatchEnv Value Actor Valence)
    (args : DispatchArgs Value) : Pc Valence → List (Effect Value Valence) → Prop where
  | acquire : Ledger env args .acquire []
  | gate : Ledger env args .gate []
  | build {actor : Actor} (hshape : env.codec.from_value args.ev.actor_json = .ok actor) :
      Ledger env args .build []
  | invoke {valence : Valence} (hsession : Session env args valence) :
      Ledger env args (.invoke valence) [.build args.ev.actor_json]
  | running {valence : Valence} (hsession : Session env args valence) :
      Ledger env args (.running valence)
        [.build args.ev.actor_json, .invoke args.dispatch valence args.ev]
  | dead_letter {reason : FailureReason} {error : String} {log : List (Effect Value Valence)}
      (hfailure : Failure env args reason error log) : Ledger env args (.dead_letter reason error) log
  | dead_lettered {reason : FailureReason} {error : String} {log : List (Effect Value Valence)}
      (hfailure : Failure env args reason error log) (stored : Bool) :
      Ledger env args (.dead_lettered reason stored)
        (log ++ [.dlq_record (args.dlq_params reason error) stored])
  | panicked {valence : Valence} (hsession : Session env args valence) :
      Ledger env args .panicked
        [.build args.ev.actor_json, .invoke args.dispatch valence args.ev, .returned .Panic]
  | checkpoint {valence : Valence} {name : String} (hsession : Session env args valence)
      (hdurable : args.is_durable = true) (hname : args.subscription_name = some name) :
      Ledger env args (.checkpoint name) (handled args valence)
  | recording {valence : Valence} {name : String} (hsession : Session env args valence)
      (hdurable : args.is_durable = true) (hname : args.subscription_name = some name) :
      Ledger env args (.recording name)
        (handled args valence ++ [.coalescer_record name args.topic_name args.ev.topic_key args.ev.seq])
  | plain {valence : Valence} (hsession : Session env args valence)
      (hplain : args.is_durable = false ∨ args.subscription_name = none) :
      Ledger env args .succeeded (handled args valence)
  | recorded {valence : Valence} {name : String} (hsession : Session env args valence)
      (hdurable : args.is_durable = true) (hname : args.subscription_name = some name) (ok : Bool) :
      Ledger env args .succeeded
        (handled args valence ++ [.coalescer_record name args.topic_name args.ev.topic_key args.ev.seq,
          if ok then .record_drain args.topic_name name
          else .record_handler_failure args.topic_name .CheckpointError])

/-- Every turn of a dispatch task extends its ledger to the next control
point. -/
theorem Ledger.step {Value Actor Valence : Type} {env : DispatchEnv Value Actor Valence}
    {args : DispatchArgs Value} {pc pc' : Pc Valence} {turn : Turn}
    {log effects : List (Effect Value Valence)} (hledger : Ledger env args pc log)
    (hmoves : Moves env args pc turn pc' effects) : Ledger env args pc' (log ++ effects) := by
  cases hmoves with
  | acquire =>
    cases hledger
    exact .gate
  | refuse hshape =>
    cases hledger
    exact .dead_letter (.shape hshape)
  | pass hshape =>
    cases hledger
    exact .build hshape
  | no_session hbuild =>
    cases hledger with
    | build hshape => exact .dead_letter (.session hshape hbuild)
  | session hbuild =>
    cases hledger with
    | build hshape => exact .invoke ⟨⟨_, hshape⟩, hbuild⟩
  | invoke =>
    cases hledger with
    | invoke hsession => exact .running hsession
  | panic =>
    cases hledger with
    | running hsession => exact .panicked hsession
  | err =>
    cases hledger with
    | running hsession => exact .dead_letter (.handler hsession)
  | ok_durable _ hdurable hname =>
    cases hledger with
    | running hsession => exact .checkpoint hsession hdurable hname
  | ok_plain _ hplain =>
    cases hledger with
    | running hsession => exact .plain hsession hplain
  | dlq_record =>
    cases hledger with
    | dead_letter hfailure => exact .dead_lettered hfailure _
  | coalescer_record =>
    cases hledger with
    | checkpoint hsession hdurable hname => exact .recording hsession hdurable hname
  | drain =>
    cases hledger with
    | recording hsession hdurable hname =>
      rw [List.append_assoc]
      exact .recorded hsession hdurable hname true
  | no_drain =>
    cases hledger with
    | recording hsession hdurable hname =>
      rw [List.append_assoc]
      exact .recorded hsession hdurable hname false

/-- A dispatch task that has ended has had exactly the effects of one call of
`dispatch_handler` with the answers it got. -/
theorem Ledger.eq_dispatch_handler {Value Actor Valence : Type} {env : DispatchEnv Value Actor Valence}
    {args : DispatchArgs Value} {pc : Pc Valence} {log : List (Effect Value Valence)}
    {answers : DispatchAnswers} (hledger : Ledger env args pc log) (hended : pc.ended = true)
    (hagrees : ∀ effect ∈ log, effect.Agrees answers) : log = dispatch_handler env args answers := by
  cases hledger with
  | @dead_lettered reason error _ hfailure stored =>
    have hstored : stored = answers.dlq := hagrees (.dlq_record (args.dlq_params reason error) stored) (by simp)
    cases hfailure with
    | shape hshape => simp [dispatch_handler, hshape, hstored]
    | session hshape hbuild => simp [dispatch_handler, hshape, hbuild, hstored]
    | handler hsession =>
      have hhandler : .Err error = answers.handler := hagrees (.returned (.Err error)) (by simp)
      obtain ⟨⟨actor, hshape⟩, hbuild⟩ := hsession
      simp [dispatch_handler, hshape, hbuild, hstored, ← hhandler]
  | panicked hsession =>
    have hhandler : .Panic = answers.handler := hagrees (.returned .Panic) (by simp)
    obtain ⟨⟨actor, hshape⟩, hbuild⟩ := hsession
    simp [dispatch_handler, hshape, hbuild, ← hhandler]
  | plain hsession hplain =>
    have hhandler : .Ok = answers.handler := hagrees (.returned .Ok) (by simp [handled])
    obtain ⟨⟨actor, hshape⟩, hbuild⟩ := hsession
    obtain hplain | hplain := hplain <;> simp [dispatch_handler, handled, hshape, hbuild, hplain, ← hhandler]
  | @recorded _ name hsession hdurable hname ok =>
    have hhandler : .Ok = answers.handler := hagrees (.returned .Ok) (by simp [handled])
    have hcoalescer : ok = answers.coalescer := by
      cases ok with
      | false => exact Eq.symm (hagrees (.record_handler_failure args.topic_name .CheckpointError) (by simp))
      | true => exact Eq.symm (hagrees (.record_drain args.topic_name name) (by simp))
    obtain ⟨⟨actor, hshape⟩, hbuild⟩ := hsession
    simp [dispatch_handler, handled, hshape, hbuild, hdurable, hname, ← hhandler, hcoalescer]
  | _ => cases hended

namespace Effect

def is_dlq_record {Value Valence : Type} : Effect Value Valence → Bool
  | .dlq_record _ _ => true
  | _ => false

def is_coalescer_record {Value Valence : Type} : Effect Value Valence → Bool
  | .coalescer_record _ _ _ _ => true
  | _ => false

def is_invoke {Value Valence : Type} : Effect Value Valence → Bool
  | .invoke _ _ _ => true
  | _ => false

end Effect

/-- The dispatch ended with its event handed to the DLQ. -/
def Pc.is_dead_lettered {Valence : Type} : Pc Valence → Bool
  | .dead_lettered _ _ => true
  | _ => false

/-- A dispatch task has called the DLQ once if it ended there, and otherwise
not at all. -/
theorem Ledger.dlq_count {Value Actor Valence : Type} {env : DispatchEnv Value Actor Valence}
    {args : DispatchArgs Value} {pc : Pc Valence} {log : List (Effect Value Valence)}
    (hledger : Ledger env args pc log) :
    log.countP Effect.is_dlq_record = if pc.is_dead_lettered then 1 else 0 := by
  cases hledger with
  | dead_letter hfailure => cases hfailure <;> rfl
  | dead_lettered hfailure => cases hfailure <;> rfl
  | recorded _ _ _ ok => cases ok <;> rfl
  | _ => rfl

theorem Ledger.coalescer_count_le {Value Actor Valence : Type} {env : DispatchEnv Value Actor Valence}
    {args : DispatchArgs Value} {pc : Pc Valence} {log : List (Effect Value Valence)}
    (hledger : Ledger env args pc log) : log.countP Effect.is_coalescer_record ≤ 1 := by
  cases hledger with
  | dead_letter hfailure => cases hfailure <;> exact Nat.zero_le _
  | dead_lettered hfailure => cases hfailure <;> exact Nat.zero_le _
  | recorded _ _ _ ok => cases ok <;> exact Nat.le_refl _
  | recording => exact Nat.le_refl _
  | _ => exact Nat.zero_le _

/-- A dispatch runs its handler at most once. -/
theorem Ledger.invoke_count_le {Value Actor Valence : Type} {env : DispatchEnv Value Actor Valence}
    {args : DispatchArgs Value} {pc : Pc Valence} {log : List (Effect Value Valence)}
    (hledger : Ledger env args pc log) : log.countP Effect.is_invoke ≤ 1 := by
  cases hledger with
  | dead_letter hfailure | dead_lettered hfailure =>
    cases hfailure <;> first | exact Nat.le_refl _ | exact Nat.zero_le _
  | recorded _ _ _ ok => cases ok <;> exact Nat.le_refl _
  | acquire | gate | build | invoke => exact Nat.zero_le _
  | _ => exact Nat.le_refl _

/-- A checkpoint call is made for the dispatch's own event and subscription,
by a durable named dispatch whose handler returned Ok. -/
theorem Ledger.coalescer_record_mem {Value Actor Valence : Type}
    {env : DispatchEnv Value Actor Valence} {args : DispatchArgs Value} {pc : Pc Valence}
    {log : List (Effect Value Valence)} {name topic_name : String} {topic_key : Option String} {seq : Int}
    (hledger : Ledger env args pc log)
    (hmem : Effect.coalescer_record name topic_name topic_key seq ∈ log) :
    pc.recorded = true ∧ args.is_durable = true ∧
      args.subscription_name = some name ∧ topic_name = args.topic_name ∧
      topic_key = args.ev.topic_key ∧ seq = args.ev.seq ∧ Effect.returned .Ok ∈ log := by
  cases hledger with
  | dead_letter hfailure => cases hfailure <;> simp at hmem
  | dead_lettered hfailure => cases hfailure <;> simp at hmem
  | recording _ hdurable hname =>
    simp [handled] at hmem
    obtain ⟨rfl, rfl, rfl, rfl⟩ := hmem
    exact ⟨rfl, hdurable, hname, rfl, rfl, rfl, by simp [handled]⟩
  | recorded _ hdurable hname ok =>
    cases ok <;> simp [handled] at hmem <;> obtain ⟨rfl, rfl, rfl, rfl⟩ := hmem <;>
      exact ⟨rfl, hdurable, hname, rfl, rfl, rfl, by simp [handled]⟩
  | _ => simp [handled] at hmem

/-- A dispatch stands before its checkpoint call under the name of its
subscription. -/
theorem Ledger.name_eq {Value Actor Valence : Type} {env : DispatchEnv Value Actor Valence}
    {args : DispatchArgs Value} {log : List (Effect Value Valence)} {name : String}
    (hledger : Ledger env args (.checkpoint name) log) : args.subscription_name = some name := by
  cases hledger with
  | checkpoint _ _ hname => exact hname

/-- A durable named dispatch that is past its checkpoint call has made it. -/
theorem Ledger.coalescer_record_of_past {Value Actor Valence : Type}
    {env : DispatchEnv Value Actor Valence} {args : DispatchArgs Value} {pc : Pc Valence}
    {log : List (Effect Value Valence)} {name : String} (hledger : Ledger env args pc log)
    (hpast : pc.recorded = true) (hdurable : args.is_durable = true)
    (hname : args.subscription_name = some name) :
    Effect.coalescer_record name args.topic_name args.ev.topic_key args.ev.seq ∈ log := by
  cases hledger with
  | plain _ hplain => simp [hdurable, hname] at hplain
  | recording _ _ hname' | recorded _ _ hname' =>
    cases Option.some.inj (hname.symm.trans hname')
    simp [handled]
  | _ => cases hpast

/-- A handler is only run with its own event and the session built from that
event's actor JSON. -/
theorem Ledger.invoke_mem {Value Actor Valence : Type} {env : DispatchEnv Value Actor Valence}
    {args : DispatchArgs Value} {pc : Pc Valence} {log : List (Effect Value Valence)}
    {dispatch : HandlerDispatch} {valence : Valence} {ev : Event Value} (hledger : Ledger env args pc log)
    (hmem : Effect.invoke dispatch valence ev ∈ log) :
    dispatch = args.dispatch ∧ ev = args.ev ∧ Session env args valence := by
  cases hledger with
  | dead_letter hfailure =>
    cases hfailure with
    | handler hsession =>
      simp at hmem
      obtain ⟨rfl, rfl, rfl⟩ := hmem
      exact ⟨rfl, rfl, hsession⟩
    | _ => simp at hmem
  | dead_lettered hfailure =>
    cases hfailure with
    | handler hsession =>
      simp at hmem
      obtain ⟨rfl, rfl, rfl⟩ := hmem
      exact ⟨rfl, rfl, hsession⟩
    | _ => simp at hmem
  | recorded hsession _ _ ok =>
    cases ok <;> simp [handled] at hmem <;> obtain ⟨rfl, rfl, rfl⟩ := hmem <;>
      exact ⟨rfl, rfl, hsession⟩
  | running hsession | panicked hsession | checkpoint hsession | recording hsession | plain hsession =>
    simp [handled] at hmem
    obtain ⟨rfl, rfl, rfl⟩ := hmem
    exact ⟨rfl, rfl, hsession⟩
  | _ => simp at hmem

end photon_valence_identity.executor
