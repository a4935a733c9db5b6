import PhotonValence.Executor.Inventory
import PhotonValence.Executor.Pairs

open photon_backend valence transition slots

namespace photon_valence_identity.executor

/-- The handlers return Ok or Err, and do not panic. -/
def HandlersReturn {Value Valence : Type} (_ : State Value Valence) : Action Value → Prop
  | .dispatch _ (.returned .Panic) => False
  | _ => True

instance {Value Valence : Type} (s : State Value Valence) (action : Action Value) :
    Decidable (HandlersReturn s action) :=
  match action with
  | .dispatch _ (.returned .Panic) => instDecidableFalse
  | .dispatch _ (.returned .Ok) | .dispatch _ (.returned (.Err _)) => instDecidableTrue
  | .dispatch _ .acquire | .dispatch _ .gate | .dispatch _ .build | .dispatch _ .invoke => instDecidableTrue
  | .dispatch _ (.dlq_record _) | .dispatch _ .coalescer_record | .dispatch _ (.recorded _) => instDecidableTrue
  | .spawn_group | .group _ _ | .abort | .cancel _ => instDecidableTrue

instance {Value : Type} (spawn : Spawn Value) (g o k : Nat) : Decidable (spawn.Serves g o k) :=
  instDecidableAnd

/-- How far the dispatch of an event to a handler has come. -/
inductive PairStatus where
  | waiting
  | holding
  | succeeded
  | dead_lettered
deriving DecidableEq, Repr

/-- The status of a dispatch task. A panicked one has none. -/
def Pc.status {Valence : Type} : Pc Valence → Option PairStatus
  | .acquire => some .waiting
  | .succeeded => some .succeeded
  | .dead_lettered _ _ => some .dead_lettered
  | .panicked => none
  | _ => some .holding

/-- The status of a pulled event and a handler that takes it: that of its
dispatch task. A pair without one waits only while the loop over the descriptors
has the event in hand and has still to come to the handler. -/
inductive State.HasStatus {Value Valence : Type} (s : State Value Valence) (g o k : Nat) : PairStatus → Prop where
  | unspawned {group : GroupTask Value} {current : Event Value} {next : Nat} (hgroup : s.groups[g]? = some group)
      (hpc : group.pc = .dispatching current next) (ho : o = group.rounds.length) (hk : next ≤ k)
      (hnone : ∀ task ∈ s.tasks, ¬ task.Serves g o k) : s.HasStatus g o k .waiting
  | spawned {task : DispatchTask Value Valence} {status : PairStatus} (htask : task ∈ s.tasks)
      (hserves : task.Serves g o k) (hstatus : task.pc.status = some status) : s.HasStatus g o k status

/-- The effects of the dispatches of one pair, oldest first. -/
def State.pair_log {Value Valence : Type} (s : State Value Valence) (g o k : Nat) :
    List (Effect Value Valence) :=
  (s.trace.filter fun entry => s.tasks[entry.1]?.any fun task => task.Serves g o k).map Prod.snd

/-- What is conserved for one pulled event and one handler that takes it. -/
structure PairConserved {Value Actor Valence : Type} (env : DispatchEnv Value Actor Valence)
    (s : State Value Valence) (g o k : Nat) (descriptor : HandlerDescriptor) (ev : Event Value) : Prop where
  one_status : ∃! status, s.HasStatus g o k status
  dlq_once : s.HasStatus g o k .dead_lettered → (s.pair_log g o k).countP Effect.is_dlq_record = 1
  dlq_otherwise : ¬ s.HasStatus g o k .dead_lettered → (s.pair_log g o k).countP Effect.is_dlq_record = 0
  coalescer_once : (s.pair_log g o k).countP Effect.is_coalescer_record ≤ 1
  coalescer_only : ∀ name topic_name topic_key seq,
    .coalescer_record name topic_name topic_key seq ∈ s.pair_log g o k →
      descriptor.mode = .Durable ∧ descriptor.subscription_name = some name ∧ topic_name = ev.topic_name ∧
        topic_key = ev.topic_key ∧ seq = ev.seq ∧ .returned .Ok ∈ s.pair_log g o k
  own_session : ∀ dispatch valence received, .invoke dispatch valence received ∈ s.pair_log g o k →
    dispatch = descriptor.dispatch ∧ received = ev ∧ Session env (dispatch_args descriptor ev) valence

/-- What is conserved in a state of the executor. -/
structure Conserved {Value Actor Valence : Type} (executor : Executor Value Actor Valence)
    (s : State Value Valence) : Prop where
  pairs : ∀ g o k descriptor ev, s.Takes g o k descriptor ev →
    PairConserved executor.toDispatchEnv s g o k descriptor ev
  permits : s.permits + s.tasks.countP (fun task => task.pc.status = some .holding) = executor.worker_pool
  bounded : s.tasks.countP (fun task => task.pc.status = some .holding) ≤ executor.worker_pool

theorem Pc.holds_permit_iff {Valence : Type} (pc : Pc Valence) :
    pc.holds_permit = true ↔ pc.status = some .holding := by
  cases pc <;> simp [Pc.holds_permit, Pc.status]

theorem Pc.is_dead_lettered_iff {Valence : Type} (pc : Pc Valence) :
    pc.is_dead_lettered = true ↔ pc.status = some .dead_lettered := by
  cases pc <;> simp [Pc.is_dead_lettered, Pc.status]

/-- Where handlers return, every dispatch task has a status. -/
theorem Executor.Reachable.has_status {Value Actor Valence : Type} {self : Executor Value Actor Valence}
    {s : State Value Valence} (hreachable : self.Reachable HandlersReturn s) :
    ∀ task ∈ s.tasks, ∃ status, task.pc.status = some status := by
  apply Steps.invariant hreachable
  · intro before action after hall hok hstep task' htask'
    obtain ⟨i, hi⟩ := List.mem_iff_getElem?.mp htask'
    obtain ⟨task, htask, _, hstays | ⟨turn, effects, rfl, hmoves⟩⟩ | hfresh :=
      (transition_of_step hstep).task_origin hi
    · rw [hstays]
      exact hall task (List.mem_of_getElem? htask)
    · generalize task.pc = pc, task'.pc = pc' at hmoves
      cases hmoves with
      | panic => exact hok.elim
      | _ => exact ⟨_, rfl⟩
    · rw [hfresh]
      exact ⟨_, rfl⟩
  · simp [start]

namespace Sound

/-- The effects of a pair are those of its dispatch task. -/
theorem pair_log_eq {Value Actor Valence : Type} {self : Executor Value Actor Valence}
    {s : State Value Valence} (hsound : Sound self s) {i g o k : Nat} {task : DispatchTask Value Valence}
    (htask : s.tasks[i]? = some task) (hserves : task.Serves g o k) : s.pair_log g o k = s.log i := by
  rw [State.pair_log, State.log]
  congr 1
  apply List.filter_congr
  intro entry hentry
  obtain ⟨other, hother⟩ : ∃ other, s.tasks[entry.1]? = some other :=
    ⟨_, List.getElem?_eq_getElem (hsound.logged entry hentry)⟩
  rw [hother, Option.any_some]
  by_cases hown : entry.1 = i
  · subst hown
    cases Option.some.inj (htask.symm.trans hother)
    simp [hserves]
  · have hforeign : ¬ other.Serves g o k := by
      intro hsame
      obtain ⟨rfl, rfl, rfl⟩ := hserves
      exact hown (hsound.task_unique htask hother hsame).symm
    simp [hown, hforeign]

/-- A pair without a dispatch has had no effects. -/
theorem pair_log_eq_nil {Value Actor Valence : Type} {self : Executor Value Actor Valence}
    {s : State Value Valence} (hsound : Sound self s) {g o k : Nat}
    (hnone : ∀ task ∈ s.tasks, ¬ task.Serves g o k) : s.pair_log g o k = [] := by
  rw [State.pair_log, List.map_eq_nil_iff, List.filter_eq_nil_iff]
  intro entry hentry
  obtain ⟨other, hother⟩ : ∃ other, s.tasks[entry.1]? = some other :=
    ⟨_, List.getElem?_eq_getElem (hsound.logged entry hentry)⟩
  rw [hother, Option.any_some]
  simpa using hnone other (List.mem_of_getElem? hother)

/-- The status of a pair is that of its dispatch task. -/
theorem has_status_iff {Value Actor Valence : Type} {self : Executor Value Actor Valence}
    {s : State Value Valence} (hsound : Sound self s) {i g o k : Nat} {task : DispatchTask Value Valence}
    (htask : s.tasks[i]? = some task) (hserves : task.Serves g o k) {status : PairStatus} :
    s.HasStatus g o k status ↔ task.pc.status = some status := by
  constructor
  · intro hstatus
    cases hstatus with
    | unspawned _ _ _ _ hnone => exact absurd hserves (hnone task (List.mem_of_getElem? htask))
    | spawned hother hsame hstatus =>
      obtain ⟨j, hj⟩ := List.mem_iff_getElem?.mp hother
      obtain ⟨rfl, rfl, rfl⟩ := hserves
      cases hsound.task_unique htask hj hsame
      cases Option.some.inj (htask.symm.trans hj)
      exact hstatus
  · exact fun hstatus => .spawned (List.mem_of_getElem? htask) hserves hstatus

/-- A pair with a dispatch is conserved by the dispatch's ledger. -/
theorem pair_of_task {Value Actor Valence : Type} {self : Executor Value Actor Valence}
    {s : State Value Valence} (hsound : Sound self s) {i g o k : Nat} {task : DispatchTask Value Valence}
    {status : PairStatus} (htask : s.tasks[i]? = some task) (hserves : task.Serves g o k)
    (hstatus : task.pc.status = some status) {descriptor : HandlerDescriptor} {ev : Event Value}
    (htakes : s.Takes g o k descriptor ev) :
    PairConserved self.toDispatchEnv s g o k descriptor ev := by
  have hargs := hsound.args_ev_eq htask hserves htakes
  have hledger := hsound.ledger i task htask
  have hlog := hsound.pair_log_eq htask hserves
  rw [hargs] at hledger
  constructor
  · refine ⟨status, (hsound.has_status_iff htask hserves).mpr hstatus, fun other hother => ?_⟩
    have hsame := (hsound.has_status_iff htask hserves).mp hother
    rw [hstatus] at hsame
    exact (Option.some.inj hsame).symm
  · intro hdead
    rw [hsound.has_status_iff htask hserves, ← Pc.is_dead_lettered_iff] at hdead
    rw [hlog, hledger.dlq_count, if_pos hdead]
  · intro hdead
    rw [hsound.has_status_iff htask hserves, ← Pc.is_dead_lettered_iff] at hdead
    rw [hlog, hledger.dlq_count, if_neg hdead]
  · rw [hlog]
    exact hledger.coalescer_count_le
  · intro name topic_name topic_key seq hmem
    rw [hlog] at hmem ⊢
    obtain ⟨_, hdurable, hname, htopic, hkey, hseq, hreturned⟩ := hledger.coalescer_record_mem hmem
    exact ⟨of_decide_eq_true hdurable, hname, htopic, hkey, hseq, hreturned⟩
  · intro dispatch valence received hmem
    rw [hlog] at hmem
    exact hledger.invoke_mem hmem

/-- A pair the loop has not come to has had no effects yet. -/
theorem pair_of_none {Value Actor Valence : Type} {self : Executor Value Actor Valence}
    {s : State Value Valence} (hsound : Sound self s) {g o k : Nat} {group : GroupTask Value}
    {current : Event Value} {next : Nat} (hgroup : s.groups[g]? = some group)
    (hpc : group.pc = .dispatching current next) (ho : o = group.rounds.length) (hk : next ≤ k)
    (hnone : ∀ task ∈ s.tasks, ¬ task.Serves g o k) (descriptor : HandlerDescriptor) (ev : Event Value) :
    PairConserved self.toDispatchEnv s g o k descriptor ev := by
  have hlog := hsound.pair_log_eq_nil hnone
  have hwaiting : ∀ status, s.HasStatus g o k status → status = .waiting := by
    intro status hstatus
    cases hstatus with
    | unspawned => rfl
    | spawned htask hserves => exact absurd hserves (hnone _ htask)
  refine ⟨⟨.waiting, .unspawned hgroup hpc ho hk hnone, hwaiting⟩, ?_, ?_, ?_, ?_, ?_⟩
  · intro hdead
    cases hwaiting _ hdead
  · simp [hlog]
  · simp [hlog]
  · simp [hlog]
  · simp [hlog]

end Sound

/-- In every state that the executor reaches with handlers that return, each
pulled event and handler that takes it is in exactly one status, the permits
held and free add up to the pool, and the calls of the DLQ, the coalescer and
the handlers are those of the pairs' own statuses, events and sessions. No
dispatch is lost: a pair the loop has come past has its own task. -/
theorem conservation {Value Actor Valence : Type} {self : Executor Value Actor Valence}
    {s : State Value Valence} (hreachable : self.Reachable HandlersReturn s) : Conserved self s := by
  have hsound := hreachable.sound
  have hheld : s.tasks.countP (fun task => task.pc.status = some .holding) =
      s.tasks.countP fun task => task.pc.holds_permit := by
    apply List.countP_congr
    intro task _
    rw [decide_eq_true_eq, Pc.holds_permit_iff]
  have hpermits := hsound.permits_eq
  rw [← hheld] at hpermits
  refine ⟨?_, hpermits, by omega⟩
  intro g o k descriptor ev htakes
  by_cases hserved : ∃ task ∈ s.tasks, task.Serves g o k
  · obtain ⟨task, hmember, hserves⟩ := hserved
    obtain ⟨i, htask⟩ := List.mem_iff_getElem?.mp hmember
    obtain ⟨status, hstatus⟩ := hreachable.has_status task hmember
    exact hsound.pair_of_task htask hserves hstatus htakes
  · have hnone : ∀ task ∈ s.tasks, ¬ task.Serves g o k := fun task htask hserves => hserved ⟨task, htask, hserves⟩
    -- without a task the loop over the descriptors is still on its way to the pair
    obtain ⟨i, task, htask, hserves, _⟩ | ⟨_, _, _, hgroup, hpc, ho, hk⟩ := hsound.served_or_pending htakes
    · exact absurd hserves (hnone task (List.mem_of_getElem? htask))
    · exact hsound.pair_of_none hgroup hpc ho hk hnone descriptor ev

/-- Two events in flight: the dispatch of the first is dead-lettered, that of
the second waits for a permit. -/
def conserving : List (Action ActorJson) :=
  [.spawn_group, .group 0 (.lookup (.ok none)), .group 0 .subscribe,
    .group 0 (.next (some (.ok (orders_event none 1)))), .group 0 .spawn, .group 0 .spawn,
    .group 0 (.next (some (.ok (orders_event none 2)))), .group 0 .spawn,
    .dispatch 0 .acquire, .dispatch 0 .gate, .dispatch 0 .build, .dispatch 0 .invoke,
    .dispatch 0 (.returned (.Err "out of stock")), .dispatch 0 (.dlq_record true)]

theorem conservation_in_flight :
    Conserved billing_executor ((execute billing_executor.step billing_executor.start conserving).get rfl) :=
  conservation (execute_steps conserving (by decide) (Option.some_get _).symm)

end photon_valence_identity.executor
