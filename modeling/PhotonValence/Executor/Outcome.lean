import Mathlib.Data.List.Perm.Basic
import PhotonValence.Executor.Progress

open photon_backend valence serde_json transition

namespace photon_valence_identity.executor

/-- One turn of a dispatch task by itself, with the effects it has had so
far. -/
def task_step {Value Actor Valence : Type} (env : DispatchEnv Value Actor Valence)
    (args : DispatchArgs Value) :
    Pc Valence × List (Effect Value Valence) → Turn → Option (Pc Valence × List (Effect Value Valence))
  | (pc, log), turn => (dispatch_step env args pc turn).map fun (pc', effects) => (pc', log ++ effects)

/-- The dispatch gets the given answers of the handler and the services. -/
def Answered {Value Valence : Type} (answers : DispatchAnswers) :
    Pc Valence × List (Effect Value Valence) → Turn → Prop :=
  fun _ turn => turn.Gets answers

/-- A dispatch task by itself, from its spawn to one of its ends. -/
def CompleteRun {Value Actor Valence : Type} (env : DispatchEnv Value Actor Valence)
    (args : DispatchArgs Value) (answers : DispatchAnswers) (log : List (Effect Value Valence)) : Prop :=
  ∃ pc, pc.ended = true ∧ Steps (task_step env args) (Answered answers) (.acquire, []) (pc, log)

theorem task_step_of_turn {Value Actor Valence : Type} {env : DispatchEnv Value Actor Valence}
    {args : DispatchArgs Value} {pc pc' : Pc Valence} {turn : Turn} {effects : List (Effect Value Valence)}
    (hturn : dispatch_step env args pc turn = some (pc', effects)) (log : List (Effect Value Valence)) :
    task_step env args (pc, log) turn = some (pc', log ++ effects) := by
  simp [task_step, hturn]

/-- Every reached state of a dispatch task has its ledger, and all of its
effects show the answers the task got. -/
theorem ledger_of_steps {Value Actor Valence : Type} {env : DispatchEnv Value Actor Valence}
    {args : DispatchArgs Value} {answers : DispatchAnswers} {pc : Pc Valence}
    {log : List (Effect Value Valence)}
    (hrun : Steps (task_step env args) (Answered answers) (.acquire, []) (pc, log)) :
    Ledger env args pc log ∧ ∀ effect ∈ log, effect.Agrees answers := by
  let Inv : Pc Valence × List (Effect Value Valence) → Prop := fun state =>
    Ledger env args state.1 state.2 ∧ ∀ effect ∈ state.2, effect.Agrees answers
  suffices h : Inv (pc, log) from h
  refine hrun.invariant ?_ ⟨.acquire, by simp⟩
  rintro ⟨pc, log⟩ turn after ⟨hledger, hagrees⟩ hgets hstep
  obtain ⟨⟨pc', effects⟩, hturn, rfl⟩ := Option.map_eq_some_iff.mp hstep
  have hmoves := moves_of_dispatch_step hturn
  refine ⟨hledger.step hmoves, fun effect heffect => ?_⟩
  obtain hold | hnew := List.mem_append.mp heffect
  · exact hagrees effect hold
  · exact hmoves.agrees hgets effect hnew

/-- A dispatch with a permit comes to an end by itself. -/
theorem exists_steps_to_end {Value Actor Valence : Type} (env : DispatchEnv Value Actor Valence)
    (args : DispatchArgs Value) (answers : DispatchAnswers) {pc : Pc Valence}
    (hholds : pc.holds_permit = true) (log : List (Effect Value Valence)) :
    ∃ pc' log', pc'.ended = true ∧ Steps (task_step env args) (Answered answers) (pc, log) (pc', log') := by
  induction hleft : pc.turns_left using Nat.strong_induction_on generalizing pc log with
  | _ left ih =>
    obtain ⟨turn, pc', effects, hgets, hturn, hnext⟩ := exists_turn env args answers hholds
    have hok : Answered answers (pc, log) turn := hgets
    have hsteps := Steps.single hok (task_step_of_turn hturn log)
    obtain hended | ⟨hholds', hless⟩ := hnext
    · exact ⟨pc', _, hended, hsteps⟩
    · obtain ⟨pc'', log', hended, hrest⟩ := ih _ (hleft ▸ hless) hholds' (log ++ effects) rfl
      exact ⟨pc'', log', hended, hsteps.trans hrest⟩

theorem exists_complete_run {Value Actor Valence : Type} (env : DispatchEnv Value Actor Valence)
    (args : DispatchArgs Value) (answers : DispatchAnswers) :
    ∃ log, CompleteRun env args answers log := by
  have hok : Answered answers ((.acquire, []) : Pc Valence × List (Effect Value Valence)) .acquire := trivial
  have hholds : (Pc.gate : Pc Valence).holds_permit = true := rfl
  obtain ⟨pc, log, hended, hrest⟩ := exists_steps_to_end env args answers hholds []
  exact ⟨log, pc, hended, (Steps.single hok rfl).trans hrest⟩

/-- The turns of a dispatch task, taken whenever the scheduler likes, add up to
one call of `dispatch_handler`. -/
theorem complete_run_iff {Value Actor Valence : Type} {env : DispatchEnv Value Actor Valence}
    {args : DispatchArgs Value} {answers : DispatchAnswers} {log : List (Effect Value Valence)} :
    CompleteRun env args answers log ↔ log = dispatch_handler env args answers := by
  have hunique : ∀ {other}, CompleteRun env args answers other → other = dispatch_handler env args answers := by
    rintro other ⟨pc, hended, hrun⟩
    obtain ⟨hledger, hagrees⟩ := ledger_of_steps hrun
    exact hledger.eq_dispatch_handler hended hagrees
  refine ⟨hunique, ?_⟩
  rintro rfl
  obtain ⟨log, hcomplete⟩ := exists_complete_run env args answers
  exact hunique hcomplete ▸ hcomplete

/-- Why a dispatch fails, with the reason and the error that go to the DLQ. -/
inductive Fails {Value Actor Valence : Type} (env : DispatchEnv Value Actor Valence)
    (args : DispatchArgs Value) (answers : DispatchAnswers) : FailureReason → String → Prop where
  | shape {e : String} (hshape : env.codec.from_value args.ev.actor_json = .error e) :
      Fails env args answers .IdentityBuild (shape_error e)
  | session {actor : Actor} {e : String} (hshape : env.codec.from_value args.ev.actor_json = .ok actor)
      (hbuild : env.valence_factory.build args.ev.actor_json = .error e) :
      Fails env args answers .IdentityBuild e
  | handler {valence : Valence} {e : String} (hsession : Session env args valence)
      (hhandler : answers.handler = .Err e) : Fails env args answers .HandlerError e

/-- The dispatch makes the checkpoint call of the subscription `name`. -/
structure Checkpoints {Value Actor Valence : Type} (env : DispatchEnv Value Actor Valence)
    (args : DispatchArgs Value) (answers : DispatchAnswers) (name : String) : Prop where
  session : ∃ valence, Session env args valence
  handler : answers.handler = .Ok
  durable : args.is_durable = true
  named : args.subscription_name = some name

/-- The place of an effect in a dispatch. -/
def Effect.stage {Value Valence : Type} : Effect Value Valence → Nat
  | .build _ => 0
  | .invoke _ _ _ => 1
  | .returned _ => 2
  | .dlq_record _ _ => 3
  | .coalescer_record _ _ _ _ => 4
  | .record_drain _ _ => 5
  | .record_handler_failure _ _ => 5

/-- Which effects a dispatch has, with which data, in which order. No stage
comes twice, so an effect that happens happens once. -/
structure OutcomeLaw {Value Actor Valence : Type} (env : DispatchEnv Value Actor Valence)
    (args : DispatchArgs Value) (answers : DispatchAnswers) (log : List (Effect Value Valence)) : Prop where
  ordered : log.Pairwise fun first second => first.stage < second.stage
  built : ∀ actor_json, .build actor_json ∈ log ↔
    actor_json = args.ev.actor_json ∧ ∃ actor, env.codec.from_value args.ev.actor_json = .ok actor
  invoked : ∀ dispatch valence ev, .invoke dispatch valence ev ∈ log ↔
    dispatch = args.dispatch ∧ Session env args valence ∧ ev = args.ev
  returned : ∀ result, .returned result ∈ log ↔
    result = answers.handler ∧ ∃ valence, Session env args valence
  dead_lettered : ∀ params stored, .dlq_record params stored ∈ log ↔
    ∃ reason error, Fails env args answers reason error ∧
      params = args.dlq_params reason error ∧ stored = answers.dlq
  recorded : ∀ name topic_name topic_key seq, .coalescer_record name topic_name topic_key seq ∈ log ↔
    Checkpoints env args answers name ∧ topic_name = args.topic_name ∧
      topic_key = args.ev.topic_key ∧ seq = args.ev.seq
  drained : ∀ topic_name name, .record_drain topic_name name ∈ log ↔
    topic_name = args.topic_name ∧ Checkpoints env args answers name ∧ answers.coalescer = true
  checkpoint_failed : ∀ topic_name reason, .record_handler_failure topic_name reason ∈ log ↔
    topic_name = args.topic_name ∧ (∃ name, Checkpoints env args answers name) ∧
      reason = .CheckpointError ∧ answers.coalescer = false
  exclusive : log.countP Effect.is_dlq_record + log.countP Effect.is_coalescer_record ≤ 1

section

variable {Value Actor Valence : Type} {env : DispatchEnv Value Actor Valence} {args : DispatchArgs Value}
  {answers : DispatchAnswers}

theorem Session.iff_eq {valence other : Valence} (hsession : Session env args valence) :
    Session env args other ↔ other = valence := by
  refine ⟨fun hother => ?_, fun heq => heq ▸ hsession⟩
  exact Except.ok.inj (hother.build.symm.trans hsession.build)

theorem Session.fails_iff {valence : Valence} (hsession : Session env args valence)
    {reason : FailureReason} {error : String} :
    Fails env args answers reason error ↔ reason = .HandlerError ∧ answers.handler = .Err error := by
  constructor
  · intro hfails
    obtain ⟨actor, hshape⟩ := hsession.shape
    cases hfails with
    | shape hrefused => cases hshape.symm.trans hrefused
    | session _ hrefused => cases hsession.build.symm.trans hrefused
    | handler _ hhandler => exact ⟨rfl, hhandler⟩
  · rintro ⟨rfl, hhandler⟩
    exact .handler hsession hhandler

theorem no_session_of_shape {e : String} (hshape : env.codec.from_value args.ev.actor_json = .error e)
    (valence : Valence) : ¬ Session env args valence := by
  rintro ⟨⟨actor, haccepted⟩, _⟩
  cases hshape.symm.trans haccepted

theorem no_session_of_build {e : String} (hbuild : env.valence_factory.build args.ev.actor_json = .error e)
    (valence : Valence) : ¬ Session env args valence := by
  rintro ⟨_, haccepted⟩
  cases hbuild.symm.trans haccepted

theorem not_checkpoints_of_no_session (hnone : ∀ valence, ¬ Session env args valence) (name : String) :
    ¬ Checkpoints env args answers name := by
  rintro ⟨⟨valence, hsession⟩, _⟩
  exact hnone valence hsession

theorem not_checkpoints_of_handler (hhandler : answers.handler ≠ .Ok) (name : String) :
    ¬ Checkpoints env args answers name :=
  fun hcheckpoints => hhandler hcheckpoints.handler

theorem fails_iff_of_shape {e : String} (hshape : env.codec.from_value args.ev.actor_json = .error e)
    (reason : FailureReason) (error : String) :
    Fails env args answers reason error ↔ reason = .IdentityBuild ∧ error = shape_error e := by
  constructor
  · intro hfails
    cases hfails with
    | shape hrefused => exact ⟨rfl, by rw [Except.error.inj (hrefused.symm.trans hshape)]⟩
    | session haccepted => cases hshape.symm.trans haccepted
    | handler hsession => exact absurd hsession (no_session_of_shape hshape _)
  · rintro ⟨rfl, rfl⟩
    exact .shape hshape

theorem fails_iff_of_build {actor : Actor} {e : String}
    (hshape : env.codec.from_value args.ev.actor_json = .ok actor)
    (hbuild : env.valence_factory.build args.ev.actor_json = .error e) (reason : FailureReason)
    (error : String) : Fails env args answers reason error ↔ reason = .IdentityBuild ∧ error = e := by
  constructor
  · intro hfails
    cases hfails with
    | shape hrefused => cases hshape.symm.trans hrefused
    | session _ hrefused => exact ⟨rfl, Except.error.inj (hrefused.symm.trans hbuild)⟩
    | handler hsession => exact absurd hsession (no_session_of_build hbuild _)
  · rintro ⟨rfl, rfl⟩
    exact .session hshape hbuild

theorem outcome_law_of_shape {e : String} (hshape : env.codec.from_value args.ev.actor_json = .error e) :
    OutcomeLaw env args answers (dispatch_handler env args answers) := by
  have hnone := no_session_of_shape hshape
  have hno_checkpoint : ∀ name, ¬ Checkpoints env args answers name := not_checkpoints_of_no_session hnone
  rw [dispatch_handler_of_shape hshape]
  constructor <;> simp [hnone, hno_checkpoint, hshape, fails_iff_of_shape hshape, Effect.is_dlq_record,
    Effect.is_coalescer_record]

theorem outcome_law_of_build {actor : Actor} {e : String}
    (hshape : env.codec.from_value args.ev.actor_json = .ok actor)
    (hbuild : env.valence_factory.build args.ev.actor_json = .error e) :
    OutcomeLaw env args answers (dispatch_handler env args answers) := by
  have hnone := no_session_of_build hbuild
  have hno_checkpoint : ∀ name, ¬ Checkpoints env args answers name := not_checkpoints_of_no_session hnone
  rw [dispatch_handler_of_build hshape hbuild]
  constructor <;> simp [hnone, hno_checkpoint, hshape, fails_iff_of_build hshape hbuild, Effect.stage,
    Effect.is_dlq_record, Effect.is_coalescer_record]

theorem outcome_law_of_plain {valence : Valence} (hsession : Session env args valence)
    (hhandler : answers.handler = .Ok) (hplain : args.is_durable = false ∨ args.subscription_name = none) :
    OutcomeLaw env args answers (dispatch_handler env args answers) := by
  obtain ⟨actor, hshape⟩ := hsession.shape
  have hno_checkpoint : ∀ name, ¬ Checkpoints env args answers name := by
    rintro name ⟨_, _, hdurable, hname⟩
    simp [hdurable, hname] at hplain
  have hlog : dispatch_handler env args answers = handled args valence := by
    obtain hplain | hplain := hplain <;> simp [dispatch_handler, handled, hshape, hsession.build, hhandler, hplain]
  rw [hlog, handled]
  constructor <;> simp [hno_checkpoint, hshape, hsession.iff_eq, hsession.fails_iff, hhandler, Effect.stage,
    Effect.is_dlq_record, Effect.is_coalescer_record]

theorem outcome_law_of_checkpoint {valence : Valence} {name : String} (hsession : Session env args valence)
    (hhandler : answers.handler = .Ok) (hdurable : args.is_durable = true)
    (hname : args.subscription_name = some name) :
    OutcomeLaw env args answers (dispatch_handler env args answers) := by
  obtain ⟨actor, hshape⟩ := hsession.shape
  have hlog : dispatch_handler env args answers = handled args valence ++
      [.coalescer_record name args.topic_name args.ev.topic_key args.ev.seq,
        if answers.coalescer then .record_drain args.topic_name name
        else .record_handler_failure args.topic_name .CheckpointError] := by
    simp [dispatch_handler, handled, hshape, hsession.build, hhandler, hdurable, hname]
  have hcheckpoints : ∀ other, Checkpoints env args answers other ↔ other = name := by
    refine fun other => ⟨fun hother => ?_, fun heq => ⟨⟨valence, hsession⟩, hhandler, hdurable, heq ▸ hname⟩⟩
    exact Option.some.inj (hother.named.symm.trans hname)
  rw [hlog, handled]
  cases hcoalescer : answers.coalescer <;> constructor <;>
    simp [hshape, hsession.iff_eq, hsession.fails_iff, hcheckpoints, hhandler, hcoalescer, Effect.stage,
      Effect.is_dlq_record, Effect.is_coalescer_record, List.countP_cons]

/-- A dispatch with a session starts with the run of its handler. -/
theorem Session.dispatch_handler_eq {valence : Valence} (hsession : Session env args valence)
    (answers : DispatchAnswers) : ∃ rest, dispatch_handler env args answers =
      .build args.ev.actor_json :: .invoke args.dispatch valence args.ev :: .returned answers.handler :: rest := by
  obtain ⟨⟨actor, hshape⟩, hbuild⟩ := hsession
  simp only [dispatch_handler, hshape, hbuild]
  exact ⟨_, rfl⟩

/-- A dispatch whose handler does not return Ok has no checkpoint call. -/
theorem outcome_law_of_session {valence : Valence} (hsession : Session env args valence) :
    OutcomeLaw env args answers (dispatch_handler env args answers) := by
  obtain ⟨actor, hshape⟩ := hsession.shape
  cases hhandler : answers.handler with
  | Panic =>
    have hno_checkpoint : ∀ name, ¬ Checkpoints env args answers name :=
      not_checkpoints_of_handler (by simp [hhandler])
    have hlog : dispatch_handler env args answers =
        [.build args.ev.actor_json, .invoke args.dispatch valence args.ev, .returned .Panic] := by
      simp [dispatch_handler, hshape, hsession.build, hhandler]
    rw [hlog]
    constructor <;> simp [hshape, hsession.iff_eq, hsession.fails_iff, hno_checkpoint, hhandler, Effect.stage,
      Effect.is_dlq_record, Effect.is_coalescer_record]
  | Err e =>
    have hno_checkpoint : ∀ name, ¬ Checkpoints env args answers name :=
      not_checkpoints_of_handler (by simp [hhandler])
    have hlog : dispatch_handler env args answers =
        [.build args.ev.actor_json, .invoke args.dispatch valence args.ev, .returned (.Err e),
          .dlq_record (args.dlq_params .HandlerError e) answers.dlq] := by
      simp [dispatch_handler, hshape, hsession.build, hhandler]
    rw [hlog]
    constructor <;> simp [hshape, hsession.iff_eq, hsession.fails_iff, hno_checkpoint, hhandler, Effect.stage,
      Effect.is_dlq_record, Effect.is_coalescer_record]
  | Ok =>
    cases hdurable : args.is_durable with
    | false => exact outcome_law_of_plain hsession hhandler (.inl hdurable)
    | true =>
      cases hname : args.subscription_name with
      | none => exact outcome_law_of_plain hsession hhandler (.inr hname)
      | some name => exact outcome_law_of_checkpoint hsession hhandler hdurable hname

theorem dispatch_handler_outcome_law (env : DispatchEnv Value Actor Valence) (args : DispatchArgs Value)
    (answers : DispatchAnswers) : OutcomeLaw env args answers (dispatch_handler env args answers) := by
  obtain ⟨valence, hsession⟩ | ⟨e, hshape⟩ | ⟨actor, e, hshape, hbuild⟩ := session_or_refused env args
  · exact outcome_law_of_session hsession
  · exact outcome_law_of_shape hshape
  · exact outcome_law_of_build hshape hbuild

theorem OutcomeLaw.nodup {log : List (Effect Value Valence)} (hlaw : OutcomeLaw env args answers log) :
    log.Nodup :=
  hlaw.ordered.imp fun hless heq => by simp [heq] at hless

/-- The law determines the list of effects. -/
theorem OutcomeLaw.unique {log other : List (Effect Value Valence)} (hlaw : OutcomeLaw env args answers log)
    (hother : OutcomeLaw env args answers other) : log = other := by
  have hmem : ∀ effect, effect ∈ log ↔ effect ∈ other := by
    intro effect
    cases effect with
    | build => rw [hlaw.built, hother.built]
    | invoke => rw [hlaw.invoked, hother.invoked]
    | returned => rw [hlaw.returned, hother.returned]
    | dlq_record => rw [hlaw.dead_lettered, hother.dead_lettered]
    | coalescer_record => rw [hlaw.recorded, hother.recorded]
    | record_drain => rw [hlaw.drained, hother.drained]
    | record_handler_failure => rw [hlaw.checkpoint_failed, hother.checkpoint_failed]
  have hperm : log.Perm other := (List.perm_ext_iff_of_nodup hlaw.nodup hother.nodup).mpr hmem
  -- two different stages cannot each come before the other
  exact hperm.eq_of_pairwise (fun first second _ _ hless hmore => absurd hless (Nat.lt_asymm hmore))
    hlaw.ordered hother.ordered

/-- The effects a dispatch has had never show two answers to one question. -/
theorem Ledger.exists_answers {pc : Pc Valence} {log : List (Effect Value Valence)}
    (hledger : Ledger env args pc log) : ∃ answers, ∀ effect ∈ log, effect.Agrees answers := by
  cases hledger with
  | @dead_letter _ error _ hfailure =>
    refine ⟨⟨.Err error, true, true⟩, ?_⟩
    cases hfailure <;> simp [Effect.Agrees]
  | @dead_lettered _ error _ hfailure stored =>
    refine ⟨⟨.Err error, stored, true⟩, ?_⟩
    cases hfailure <;> simp [Effect.Agrees]
  | panicked => exact ⟨⟨.Panic, true, true⟩, by simp [Effect.Agrees]⟩
  | recorded _ _ _ ok =>
    refine ⟨⟨.Ok, true, ok⟩, ?_⟩
    cases ok <;> simp [handled, Effect.Agrees]
  | _ => exact ⟨⟨.Ok, true, true⟩, by simp [handled, Effect.Agrees]⟩

theorem Session.dispatch_handler_durable {valence : Valence} {name : String} (hsession : Session env args valence)
    (hdurable : args.is_durable = true) (hname : args.subscription_name = some name) (stored ok : Bool) :
    dispatch_handler env args ⟨.Ok, stored, ok⟩ = handled args valence ++
      [.coalescer_record name args.topic_name args.ev.topic_key args.ev.seq,
        if ok then .record_drain args.topic_name name
        else .record_handler_failure args.topic_name .CheckpointError] := by
  obtain ⟨⟨actor, hshape⟩, hbuild⟩ := hsession
  simp [dispatch_handler, handled, hshape, hbuild, hdurable, hname]

/-- What a dispatch has done so far is the beginning of the call of
`dispatch_handler` that gets the same answers. -/
theorem Ledger.prefix_dispatch_handler {pc : Pc Valence} {log : List (Effect Value Valence)}
    (hledger : Ledger env args pc log) (hagrees : ∀ effect ∈ log, effect.Agrees answers) :
    log <+: dispatch_handler env args answers := by
  by_cases hended : pc.ended = true
  · exact hledger.eq_dispatch_handler hended hagrees ▸ List.prefix_refl _
  · cases hledger with
    | acquire | gate | build => exact List.nil_prefix
    | invoke hsession =>
      obtain ⟨rest, hcall⟩ := hsession.dispatch_handler_eq answers
      rw [hcall]
      exact List.prefix_append [_] _
    | running hsession =>
      obtain ⟨rest, hcall⟩ := hsession.dispatch_handler_eq answers
      rw [hcall]
      exact List.prefix_append [_, _] _
    | @dead_letter _ error _ hfailure =>
      cases hfailure with
      | shape => exact List.nil_prefix
      | session hshape hbuild =>
        rw [dispatch_handler_of_build hshape hbuild]
        exact List.prefix_append [_] _
      | handler hsession =>
        have hhandler : .Err error = answers.handler := hagrees (.returned (.Err error)) (by simp)
        obtain ⟨rest, hcall⟩ := hsession.dispatch_handler_eq answers
        rw [hcall, ← hhandler]
        exact List.prefix_append [_, _, _] _
    | checkpoint hsession =>
      have hhandler : .Ok = answers.handler := hagrees (.returned .Ok) (by simp [handled])
      obtain ⟨rest, hcall⟩ := hsession.dispatch_handler_eq answers
      rw [hcall, ← hhandler]
      exact List.prefix_append [_, _, _] _
    | recording hsession hdurable hname =>
      have hhandler : .Ok = answers.handler := hagrees (.returned .Ok) (by simp [handled])
      have hanswers : answers = ⟨.Ok, answers.dlq, answers.coalescer⟩ := by rw [hhandler]
      rw [hanswers, hsession.dispatch_handler_durable hdurable hname]
      exact List.prefix_append [_, _, _, _] _
    | _ => exact absurd rfl hended

/-- In every state of the executor, a dispatch that has ended has had the effects
the law lists for the answers it got. -/
theorem Sound.ended_outcome {self : Executor Value Actor Valence} {s : State Value Valence}
    (hsound : Sound self s) {i : Nat} {task : DispatchTask Value Valence} (htask : s.tasks[i]? = some task)
    (hended : task.pc.ended = true) :
    ∃ answers, OutcomeLaw self.toDispatchEnv task.args answers (s.log i) := by
  have hledger := hsound.ledger i task htask
  obtain ⟨answers, hagrees⟩ := hledger.exists_answers
  have hlog := hledger.eq_dispatch_handler hended hagrees
  exact ⟨answers, hlog ▸ dispatch_handler_outcome_law _ _ answers⟩

end

end photon_valence_identity.executor
