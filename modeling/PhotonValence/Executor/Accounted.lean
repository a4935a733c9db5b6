import PhotonValence.Executor.Outcome
import PhotonValence.Executor.Inventory

open photon_backend valence

namespace photon_valence_identity.executor

/-- What has become of the event can be told after the dispatch has ended: its
handler returned Ok, the DLQ holds it for the subscription, or a failure was
reported. -/
inductive Accounted {Value Valence : Type} (args : DispatchArgs Value)
    (log : List (Effect Value Valence)) : Prop where
  | returned_ok (hreturned : .returned .Ok ∈ log)
  | dead_lettered {reason : FailureReason} {error : String}
      (hrecord : .dlq_record (args.dlq_params reason error) true ∈ log)
  | reported {topic_name : String} {reason : FailureReason}
      (hreport : .record_handler_failure topic_name reason ∈ log)

/-- The handler does not panic if it is run, and the DLQ takes the record if
the dispatch fails. -/
structure Accountable {Value Actor Valence : Type} (env : DispatchEnv Value Actor Valence)
    (args : DispatchArgs Value) (answers : DispatchAnswers) : Prop where
  no_panic : ∀ valence, Session env args valence → answers.handler ≠ .Panic
  recordable : ∀ reason error, Fails env args answers reason error → answers.dlq = true

section

variable {Value Actor Valence : Type} {env : DispatchEnv Value Actor Valence} {args : DispatchArgs Value}
  {answers : DispatchAnswers} {log : List (Effect Value Valence)}

/-- A dispatch that does not fail gets a session. -/
theorem exists_session_or_fails (env : DispatchEnv Value Actor Valence) (args : DispatchArgs Value)
    (answers : DispatchAnswers) :
    (∃ valence, Session env args valence) ∨ ∃ reason error, Fails env args answers reason error := by
  obtain hsession | ⟨e, hshape⟩ | ⟨actor, e, hshape, hbuild⟩ := session_or_refused env args
  · exact .inl hsession
  · exact .inr ⟨_, _, .shape hshape⟩
  · exact .inr ⟨_, _, .session hshape hbuild⟩

/-- A reported checkpoint failure comes after the handler's Ok, so there are
two ways to account for an event. -/
theorem OutcomeLaw.accounted_iff (hlaw : OutcomeLaw env args answers log) :
    Accounted args log ↔ (answers.handler = .Ok ∧ ∃ valence, Session env args valence) ∨
      ∃ reason error, Fails env args answers reason error ∧ answers.dlq = true := by
  constructor
  · intro haccounted
    cases haccounted with
    | returned_ok hreturned =>
      obtain ⟨hhandler, hsession⟩ := (hlaw.returned _).mp hreturned
      exact .inl ⟨hhandler.symm, hsession⟩
    | dead_lettered hrecord =>
      obtain ⟨reason, error, hfails, _, hstored⟩ := (hlaw.dead_lettered _ _).mp hrecord
      exact .inr ⟨reason, error, hfails, hstored.symm⟩
    | reported hreport =>
      obtain ⟨_, ⟨name, hcheckpoints⟩, _⟩ := (hlaw.checkpoint_failed _ _).mp hreport
      exact .inl ⟨hcheckpoints.handler, hcheckpoints.session⟩
  · rintro (⟨hhandler, hsession⟩ | ⟨reason, error, hfails, hstored⟩)
    · exact .returned_ok ((hlaw.returned _).mpr ⟨hhandler.symm, hsession⟩)
    · exact .dead_lettered ((hlaw.dead_lettered _ _).mpr ⟨reason, error, hfails, rfl, hstored.symm⟩)

theorem OutcomeLaw.accounted_iff_accountable (hlaw : OutcomeLaw env args answers log) :
    Accounted args log ↔ Accountable env args answers := by
  rw [hlaw.accounted_iff]
  constructor
  · rintro (⟨hhandler, valence, hsession⟩ | ⟨reason, error, hfails, hstored⟩)
    · refine ⟨fun _ _ => by simp [hhandler], fun reason error hfails => ?_⟩
      have hfailed := (hsession.fails_iff.mp hfails).2
      cases hhandler.symm.trans hfailed
    · refine ⟨fun valence hsession => ?_, fun _ _ _ => hstored⟩
      simp [(hsession.fails_iff.mp hfails).2]
  · intro haccountable
    obtain ⟨valence, hsession⟩ | ⟨reason, error, hfails⟩ := exists_session_or_fails env args answers
    · cases hhandler : answers.handler with
      | Ok => exact .inl ⟨rfl, valence, hsession⟩
      | Panic => exact absurd hhandler (haccountable.no_panic valence hsession)
      | Err e =>
        have hfails := Fails.handler hsession hhandler
        exact .inr ⟨_, _, hfails, haccountable.recordable _ _ hfails⟩
    · exact .inr ⟨reason, error, hfails, haccountable.recordable _ _ hfails⟩

theorem not_accounted (hnot : ¬ Accountable env args answers) :
    ∃ log, CompleteRun env args answers log ∧ ¬ Accounted args log :=
  ⟨_, complete_run_iff.mpr rfl,
    fun haccounted => hnot ((dispatch_handler_outcome_law _ _ _).accounted_iff_accountable.mp haccounted)⟩

/-- A dispatch task that ends accounts for its event exactly when its handler
does not panic and the DLQ does not refuse the record of a failure. -/
theorem ends_accounted_iff (env : DispatchEnv Value Actor Valence) (args : DispatchArgs Value)
    (answers : DispatchAnswers) :
    (∀ log, CompleteRun env args answers log → Accounted args log) ↔ Accountable env args answers := by
  constructor
  · intro hall
    by_contra hnot
    obtain ⟨log, hrun, hunaccounted⟩ := not_accounted hnot
    exact hunaccounted (hall log hrun)
  · rintro haccountable log hrun
    rw [complete_run_iff.mp hrun]
    exact (dispatch_handler_outcome_law env args answers).accounted_iff_accountable.mpr haccountable

end

def billing_args : DispatchArgs ActorJson :=
  dispatch_args (orders_handler (some "billing") none .Durable 0) (orders_event none 1)

/-- A panic, and a handler error whose DLQ record is refused, leave nothing
behind. -/
theorem ends_unaccounted :
    (∃ log, CompleteRun open_env billing_args ⟨.Panic, true, true⟩ log ∧ ¬ Accounted billing_args log) ∧
      ∃ log, CompleteRun open_env billing_args ⟨.Err "declined", false, true⟩ log ∧
        ¬ Accounted billing_args log := by
  have hsession : Session open_env billing_args (.User "u1") := ⟨⟨_, rfl⟩, rfl⟩
  constructor
  · exact not_accounted fun haccountable => haccountable.no_panic _ hsession rfl
  · refine not_accounted fun haccountable => ?_
    cases haccountable.recordable _ _ (.handler hsession rfl)

end photon_valence_identity.executor
