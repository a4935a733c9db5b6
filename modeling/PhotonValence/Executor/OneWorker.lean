import PhotonValence.Executor.AtLeastOnce
import PhotonValence.Executor.Serial

open photon_backend valence transition slots

namespace photon_valence_identity.executor

/-- The event a handler is run with. -/
def Effect.invoked_event {Value Valence : Type} : Effect Value Valence → Option (Event Value)
  | .invoke _ _ ev => some ev
  | _ => none

/-- The events handler `k` of group `g` was run with, oldest first. -/
def State.invoked {Value Valence : Type} (s : State Value Valence) (g k : Nat) : List (Event Value) :=
  (s.trace.filter fun entry => s.tasks[entry.1]?.any fun task => task.group = g ∧ task.entry = k).filterMap
    fun entry => entry.2.invoked_event

/-- A dispatch runs its handler with its own event, once at most. -/
theorem Ledger.invoked_sublist {Value Actor Valence : Type} {env : DispatchEnv Value Actor Valence}
    {args : DispatchArgs Value} {pc : Pc Valence} {log : List (Effect Value Valence)}
    (hledger : Ledger env args pc log) : (log.filterMap Effect.invoked_event).Sublist [args.ev] := by
  cases hledger with
  | acquire | gate | build | invoke => exact List.nil_sublist _
  | dead_letter hfailure | dead_lettered hfailure =>
    cases hfailure with
    | shape | session => exact List.nil_sublist _
    | handler => exact List.Sublist.refl _
  | recorded _ _ _ ok => cases ok <;> exact List.Sublist.refl _
  | _ => exact List.Sublist.refl _

namespace OneByOne

/-- Dispatches that get their permits in the order of their spawning have them
in that order. -/
theorem fifo_step {Value Actor Valence : Type} {self : Executor Value Actor Valence} {s s' : State Value Valence}
    {action : Action Value} {n : Nat} (hpool : self.worker_pool ≤ 1) (hsound : Sound self s)
    (hserial : OneByOne s (List.range n)) (hfifo : FirstComeFirstServed s action)
    (hstep : self.step s action = some s') : ∃ n, OneByOne s' (List.range n) := by
  obtain hkept | ⟨i, task, rfl, htask, hwaiting, hadded⟩ := hserial.step hpool hsound hstep
  · exact ⟨n, hkept⟩
  · have hfresh : i ∉ List.range n := by
      intro hmember
      rw [(hserial.begun i task htask).mp hmember] at hwaiting
      cases hwaiting
    have hbefore : ∀ j < i, j ∈ List.range n := by
      intro j hlt
      have hbound := (List.getElem?_eq_some_iff.mp htask).1
      have hearlier : s.tasks[j]? = some s.tasks[j] := List.getElem?_eq_getElem (by omega)
      exact (hserial.begun j _ hearlier).mpr (hfifo j hlt _ hearlier)
    have hn : i = n := by
      have hle : n ≤ i := by simpa using hfresh
      by_contra hne
      have hlast := hbefore n (by omega)
      simp at hlast
    rw [hn, ← List.range_succ] at hadded
    exact ⟨n + 1, hadded⟩

/-- The dispatches spawned before one that has begun have ended. -/
theorem ended_before {Value Valence : Type} {s : State Value Valence} {n i j : Nat}
    {task earlier : DispatchTask Value Valence} (hserial : OneByOne s (List.range n))
    (htask : s.tasks[i]? = some task) (hbegun : task.pc.waiting = false) (hearlier : s.tasks[j]? = some earlier)
    (hlt : j < i) : earlier.pc.ended = true := by
  have hi : i < n := List.mem_range.mp ((hserial.begun i task htask).mpr hbegun)
  refine hserial.ended j ?_ earlier hearlier
  obtain ⟨m, rfl⟩ : ∃ m, n = m + 1 := ⟨n - 1, by omega⟩
  rw [List.range_succ, List.dropLast_concat, List.mem_range]
  omega

end OneByOne

theorem Executor.Reachable.fifo_serial {Value Actor Valence : Type} {self : Executor Value Actor Valence}
    {ok : State Value Valence → Action Value → Prop} {s : State Value Valence} (hreachable : self.Reachable ok s)
    (hpool : self.worker_pool ≤ 1)
    (hfifo : ∀ state action, ok state action → FirstComeFirstServed state action) :
    ∃ n, OneByOne s (List.range n) := by
  apply Steps.invariant_along hreachable
  · rintro before action after hbefore ⟨n, hserial⟩ hok hstep
    exact hserial.fifo_step hpool (Reachable.sound hbefore) (hfifo before action hok) hstep
  · exact ⟨0, .start self⟩

theorem State.handed_events {Value Valence : Type} (s : State Value Valence) (g k : Nat) :
    (s.handed g k).map DispatchArgs.ev = s.tasks.flatMap fun task =>
      if task.group = g ∧ task.entry = k then [task.args.ev] else [] := by
  unfold State.handed State.spawned
  induction s.tasks with
  | nil => rfl
  | cons task rest ih =>
    rw [List.flatMap_cons, ← ih]
    by_cases hgroup : task.group = g <;> by_cases hentry : task.entry = k <;> simp [hgroup, hentry]

/-- When the dispatches run in the order in which they were spawned, a handler
is run with events in the order in which they were handed to it. -/
theorem OneByOne.invoked_sublist {Value Actor Valence : Type} {self : Executor Value Actor Valence}
    {s : State Value Valence} {n : Nat} (hsound : Sound self s) (hserial : OneByOne s (List.range n)) (g k : Nat) :
    (s.invoked g k).Sublist ((s.handed g k).map DispatchArgs.ev) := by
  have hlength : n ≤ s.tasks.length := by
    cases n with
    | zero => exact Nat.zero_le _
    | succ n => exact hserial.spawned n (by simp)
  rw [State.invoked, hserial.trace_eq, State.handed_events, blocks, List.filter_flatMap, List.filterMap_flatMap]
  refine flatMap_range_sublist hlength fun i task htask => ?_
  have hledger := (hsound.ledger i task htask).invoked_sublist
  by_cases hown : task.group = g ∧ task.entry = k
  · rw [if_pos hown]
    simpa [List.filter_map, htask, hown, List.filterMap_map, Function.comp_def] using hledger
  · rw [if_neg hown]
    simp [List.filter_map, htask, hown, Function.comp_def]

/-- A pool of one that is fair handles the dispatches in the order in which they
were spawned, one call of `dispatch_handler` after the other; so every handler
is run with the events of its group in the order of the stream. -/
theorem fifo_one_worker_in_stream_order {Value Actor Valence : Type} {self : Executor Value Actor Valence}
    {s : State Value Valence} (hpool : self.worker_pool ≤ 1) (hreachable : self.Reachable FirstComeFirstServed s) :
    (∃ n answers, s.trace <+: s.in_sequence self.toDispatchEnv (List.range n) answers) ∧
      ∀ (g k : Nat) (group : GroupTask Value), s.groups[g]? = some group → k < group.handlers.length →
        (s.invoked g k).Sublist group.pulled := by
  have hsound := hreachable.sound
  obtain ⟨n, hserial⟩ := hreachable.fifo_serial hpool fun _ _ => id
  obtain ⟨answers, hruns, _⟩ := hserial.runs_in_sequence hsound
  refine ⟨⟨n, answers, hruns⟩, fun g k group hgroup hk => ?_⟩
  have hhanded := hserial.invoked_sublist hsound g k
  rw [hsound.handed_eq hgroup (List.getElem?_eq_getElem hk), List.map_map] at hhanded
  have hevents : ∀ evs : List (Event Value),
      evs.map (DispatchArgs.ev ∘ routed_args group.handlers[k]) = evs := fun evs => List.map_id evs
  rw [hevents] at hhanded
  exact hhanded.trans (List.filter_sublist.trans (group.offered_prefix k).sublist)

theorem fifo_one_worker_in_stream_order_orders : ∃ s,
    execute single_worker.step single_worker.start (taking_turns.take 9) = some s ∧
      (∃ n answers, s.trace <+: s.in_sequence single_worker.toDispatchEnv (List.range n) answers) ∧
      ∀ (g k : Nat) (group : GroupTask ActorJson), s.groups[g]? = some group → k < group.handlers.length →
        (s.invoked g k).Sublist group.pulled := by
  obtain ⟨s, hexecute⟩ : ∃ s, execute single_worker.step single_worker.start (taking_turns.take 9) = some s :=
    ⟨_, rfl⟩
  exact ⟨s, hexecute, fifo_one_worker_in_stream_order (Nat.le_refl 1)
    (execute_steps (taking_turns.take 9) (by decide) hexecute)⟩

/-- The dispatch ended without a trace of its event: its handler panicked, or
the DLQ did not take it. -/
def Pc.lost {Valence : Type} : Pc Valence → Bool
  | .panicked | .dead_lettered _ false => true
  | _ => false

theorem Pc.settled_or_lost {Valence : Type} {pc : Pc Valence} (hended : pc.ended = true) :
    pc.settled = true ∨ pc.lost = true := by
  cases pc with
  | succeeded => exact .inl rfl
  | panicked => exact .inr rfl
  | dead_lettered _ stored => cases stored <;> simp [settled, lost]
  | _ => cases hended

/-- With a fair pool of one a checkpoint passes an event only for two reasons:
it is settled, or it was lost to a panic or a failure of the DLQ. Nothing that
is still to be done is passed. -/
theorem fifo_one_worker_gap_is_lost {Value Actor Valence : Type} {self : Executor Value Actor Valence}
    {s : State Value Valence} {g : Nat} (hpool : self.worker_pool ≤ 1)
    (hreachable : self.Reachable (fun state action =>
      OfGroup g Increasing state action ∧ FirstComeFirstServed state action) s)
    {i o : Nat} {name topic_name : String} {topic_key : Option String} {seq : Int}
    {task : DispatchTask Value Valence} {descriptor : HandlerDescriptor} {ev : Event Value}
    (hrecord : (i, .coalescer_record name topic_name topic_key seq) ∈ s.trace) (htask : s.tasks[i]? = some task)
    (howner : task.group = g) (htakes : s.Takes g o task.entry descriptor ev)
    (hpassed : ¬ delivers_retained (some seq) ev) :
    ∃ earlier ∈ s.tasks, earlier.Serves g o task.entry ∧
      (earlier.pc.settled = true ∨ earlier.pc.lost = true) := by
  subst howner
  have hsound := hreachable.sound
  obtain ⟨n, hserial⟩ := hreachable.fifo_serial hpool fun _ _ hok => hok.2
  have hordered := hreachable.ordered fun _ _ hok => hok.1
  obtain ⟨caller, hcaller, hrecorded, _, _, _, _, hseq⟩ := hsound.coalescer_record_mem hrecord
  cases Option.some.inj (htask.symm.trans hcaller)
  have hreturned := Pc.returned_ok_of_recorded hrecorded
  obtain ⟨own, hown, _⟩ := hsound.takes_of_getElem? htask
  obtain hbefore | rfl | hafter := Nat.lt_trichotomy o task.occurrence
  · obtain ⟨j, earlier, hlt, hearlier, hserves, _⟩ := hsound.served_before htask htakes hbefore
    have hbegun : task.pc.waiting = false := by
      cases hpc : task.pc <;> simp [hpc, Pc.returned_ok, Pc.waiting] at hreturned ⊢
    have hended := hserial.ended_before htask hbegun hearlier hlt
    exact ⟨earlier, List.mem_of_getElem? hearlier, hserves, Pc.settled_or_lost hended⟩
  · exact ⟨task, List.mem_of_getElem? htask, ⟨rfl, rfl, rfl⟩, .inl (Pc.settled_of_returned_ok hreturned)⟩
  · rw [delivers_retained_some, hseq] at hpassed
    exact absurd ((hordered.seq_lt_iff hown htakes).mpr hafter) hpassed

/-- Two events for one worker: the handler panics on the first and its
checkpoint passes it with the second. -/
def panicking : List (Action ActorJson) :=
  taking_turns.take 9 ++
    [.dispatch 0 .acquire, .dispatch 0 .gate, .dispatch 0 .build, .dispatch 0 .invoke,
      .dispatch 0 (.returned .Panic), .dispatch 1 .acquire, .dispatch 1 .gate, .dispatch 1 .build,
      .dispatch 1 .invoke, .dispatch 1 (.returned .Ok), .dispatch 1 .coalescer_record]

theorem fifo_one_worker_gap_is_lost_panicked : ∃ s task,
    execute single_worker.step single_worker.start panicking = some s ∧ s.tasks[1]? = some task ∧
      ∃ earlier ∈ s.tasks, earlier.Serves 0 0 task.entry ∧
        (earlier.pc.settled = true ∨ earlier.pc.lost = true) := by
  obtain ⟨s, task, hexecute, htask, howner, hrecord, htakes⟩ : ∃ s task,
      execute single_worker.step single_worker.start panicking = some s ∧ s.tasks[1]? = some task ∧
        task.group = 0 ∧ s.trace[6]? = some (1, .coalescer_record "billing" "orders" none 2) ∧
        s.Takes 0 0 task.entry (orders_handler (some "billing") none .Durable 0) (orders_event none 1) :=
    ⟨_, _, rfl, rfl, rfl, rfl, _, rfl, rfl, rfl, rfl⟩
  exact ⟨s, task, hexecute, htask, fifo_one_worker_gap_is_lost (Nat.le_refl 1)
    (execute_steps panicking (by decide) hexecute) (List.mem_of_getElem? hrecord) htask howner htakes
    (by simp [orders_event])⟩

/-- A turn that loses no event settles the dispatch that it ends. -/
theorem Moves.settled_of_ended {Value Actor Valence : Type} {env : DispatchEnv Value Actor Valence}
    {args : DispatchArgs Value} {pc pc' : Pc Valence} {turn : Turn} {effects : List (Effect Value Valence)}
    (hmoves : Moves env args pc turn pc' effects) (hpanic : turn ≠ .returned .Panic)
    (hrefused : turn ≠ .dlq_record false) (hended : pc'.ended = true) : pc'.settled = true := by
  cases hmoves with
  | panic => exact absurd rfl hpanic
  | dlq_record reason error stored =>
    cases stored with
    | true => rfl
    | false => exact absurd rfl hrefused
  | ok_plain | drain | no_drain => rfl
  | _ => cases hended

/-- No dispatch that has ended has lost its event. -/
def State.NoneLost {Value Valence : Type} (s : State Value Valence) : Prop :=
  ∀ task ∈ s.tasks, task.pc.ended = true → task.pc.settled = true

theorem Executor.Transition.none_lost {Value Actor Valence : Type} {self : Executor Value Actor Valence}
    {s s' : State Value Valence} {action : Action Value} (htransition : self.Transition s action s')
    (hkept : ∀ i turn, action = .dispatch i turn → turn ≠ .returned .Panic ∧ turn ≠ .dlq_record false)
    (hnone : s.NoneLost) : s'.NoneLost := by
  intro task' htask' hended
  obtain ⟨i, hi⟩ := List.mem_iff_getElem?.mp htask'
  obtain ⟨task, htask, _, hsame | ⟨turn, effects, rfl, hmoves⟩⟩ | hfresh := htransition.task_origin hi
  · rw [hsame] at hended ⊢
    exact hnone task (List.mem_of_getElem? htask) hended
  · obtain ⟨hpanic, hrefused⟩ := hkept i turn rfl
    exact hmoves.settled_of_ended hpanic hrefused hended
  · rw [hfresh] at hended
    cases hended

/-- A step of a deployment with fair pools of one, none of whose handlers panics
and whose DLQ takes what it is given; for the rest as in an orderly one. -/
def OneFairWorker {Value Actor Valence : Type} (carries : TopicKey → Event Value → Bool)
    (d : Deployment Value Actor Valence) : DeploymentAction Value Actor Valence → Prop
  | .run (.dispatch i turn) => FirstComeFirstServed d.running (.dispatch i turn) ∧
    turn ≠ .returned .Panic ∧ turn ≠ .dlq_record false
  | .restart setup => setup.worker_pool ≤ 1 ∧ Orderly carries d (.restart setup)
  | action => Orderly carries d action

instance {Value Actor Valence : Type} [DecidableEq Value] (carries : TopicKey → Event Value → Bool)
    (d : Deployment Value Actor Valence) (action : DeploymentAction Value Actor Valence) :
    Decidable (OneFairWorker carries d action) :=
  match action with
  | .run (.dispatch i turn) => inferInstanceAs (Decidable (FirstComeFirstServed d.running
      (.dispatch i turn) ∧ turn ≠ .returned .Panic ∧ turn ≠ .dlq_record false))
  | .run (.group g turn) => inferInstanceAs (Decidable (Orderly carries d (.run (.group g turn))))
  | .run .spawn_group | .run .abort | .run (.cancel _) => instDecidableTrue
  | .publish ev => inferInstanceAs (Decidable (Orderly carries d (.publish ev)))
  | .restart setup => inferInstanceAs (Decidable (setup.worker_pool ≤ 1 ∧ Orderly carries d (.restart setup)))

/-- What a fair pool of one keeps up while nothing is lost. -/
structure InTurn {Value Actor Valence : Type} (executor : Executor Value Actor Valence)
    (s : State Value Valence) : Prop where
  one_worker : executor.worker_pool ≤ 1
  sound : Sound executor s
  serial : ∃ n, OneByOne s (List.range n)
  settled : ∀ task ∈ s.tasks, task.pc.ended = true → task.pc.settled = true

namespace InTurn

theorem start {Value Actor Valence : Type} {self : Executor Value Actor Valence} (hpool : self.worker_pool ≤ 1) :
    InTurn self self.start where
  one_worker := hpool
  sound := self.sound_start
  serial := ⟨0, .start self⟩
  settled := by simp [Executor.start]

theorem step {Value Actor Valence : Type} {self : Executor Value Actor Valence} {s s' : State Value Valence}
    {action : Action Value} (hturn : InTurn self s) (hstep : self.step s action = some s')
    (hfifo : FirstComeFirstServed s action)
    (hkept : ∀ i turn, action = .dispatch i turn → turn ≠ .returned .Panic ∧ turn ≠ .dlq_record false) :
    InTurn self s' where
  one_worker := hturn.one_worker
  sound := Executor.sound_step hturn.sound hstep
  serial := by
    obtain ⟨n, hserial⟩ := hturn.serial
    exact hserial.fifo_step hturn.one_worker hturn.sound hfifo hstep
  settled := (Executor.transition_of_step hstep).none_lost hkept hturn.settled

/-- With a fair pool of one the handlers return in order. -/
theorem returns_in_order {Value Actor Valence : Type} {self : Executor Value Actor Valence}
    {s s' : State Value Valence} {i : Nat} {turn : Turn} (hturn : InTurn self s)
    (hstep : self.step s (.dispatch i turn) = some s') : ReturnsInOrder s (.dispatch i turn) := by
  obtain ⟨n, hserial⟩ := hturn.serial
  obtain ⟨mover, pc', effects, hmover, hmoves, _⟩ := Executor.step_dispatch_cases hstep
  unfold ReturnsInOrder
  split
  · rename_i heq
    cases heq
    intro task htask _ _ j hlt earlier hearlier _ _
    cases Option.some.inj (hmover.symm.trans htask)
    have hbegun : mover.pc.waiting = false := by
      generalize mover.pc = pc at hmoves
      cases hmoves <;> rfl
    have hended := hserial.ended_before hmover hbegun hearlier hlt
    exact hturn.settled earlier (List.mem_of_getElem? hearlier) hended
  · trivial

end InTurn

/-- A step of a deployment with fair pools of one is orderly. -/
theorem InTurn.deployment_step {Value Actor Valence : Type} {carries : TopicKey → Event Value → Bool}
    {d d' : Deployment Value Actor Valence} {action : DeploymentAction Value Actor Valence}
    (hturn : InTurn d.setup d.running) (hfair : OneFairWorker carries d action) (hstep : d.step action = some d') :
    Orderly carries d action ∧ InTurn d'.setup d'.running := by
  obtain ⟨ev, rfl, rfl⟩ | ⟨own, running, rfl, hrun, rfl⟩ | ⟨setup, rfl, rfl⟩ := Deployment.step_cases hstep
  · exact ⟨hfair, hturn⟩
  · cases own with
    | dispatch i turn =>
      obtain ⟨hfifo, hkept⟩ := hfair
      refine ⟨hturn.returns_in_order hrun, hturn.step hrun hfifo fun i turn heq => ?_⟩
      cases heq
      exact hkept
    | _ => exact ⟨hfair, hturn.step hrun trivial nofun⟩
  · exact ⟨hfair.2, .start hfair.1⟩

/-- Fair pools of one deliver at least once to every durable handler that can
resume, wherever the processes go down, as long as no handler panics and the DLQ
takes what it is given. -/
theorem one_fair_worker_delivers_at_least_once {Value Actor Valence : Type}
    {carries : TopicKey → Event Value → Bool} {first : Executor Value Actor Valence}
    {published : List (Event Value)} {stored : List (Slot × Int)} {d : Deployment Value Actor Valence}
    {h : HandlerDescriptor} (hpool : first.worker_pool ≤ 1) (hresumable : Resumable first.registry stored h)
    (hpublished : Numbered published)
    (hrun : Steps Deployment.step (OneFairWorker carries) (.start first published stored) d) :
    AtLeastOnce carries d h := by
  obtain ⟨horderly, _⟩ := hrun.guarded (fun _ _ _ hturn hfair hstep => InTurn.deployment_step hturn hfair hstep)
    (.start hpool)
  have hdeployed := Deployed.of_steps hpublished horderly
  exact hdeployed.at_least_once hresumable (Deployed.passed_of_steps hresumable hpublished horderly)

/-- The same restart with pools of one; the first two events of the second
process are handled too. -/
def fair_restarting : List (DeploymentAction ActorJson Actor Actor) :=
  restarting.take 12 ++ .restart single_worker :: restarting.drop 13 ++
    ([.dispatch 0 .acquire, .dispatch 0 .gate, .dispatch 0 .build, .dispatch 0 .invoke,
      .dispatch 0 (.returned (.Err "no stock")), .dispatch 0 (.dlq_record true), .dispatch 1 .acquire,
      .dispatch 1 .gate, .dispatch 1 .build, .dispatch 1 .invoke, .dispatch 1 (.returned .Ok),
      .dispatch 1 .coalescer_record].map fun action => .run action)

theorem one_fair_worker_delivers_at_least_once_restarted : ∃ d : Deployment ActorJson Actor Actor,
    execute Deployment.step (.start single_worker [orders_event none 1, orders_event none 2]
      [(("billing", "orders", none), 0)]) fair_restarting = some d ∧
      d.checkpoints.map Prod.snd = [0, 1, 3] ∧
      AtLeastOnce exact_key d (orders_handler (some "billing") none .Durable 0) := by
  obtain ⟨d, hexecute, hcheckpoints⟩ : ∃ d : Deployment ActorJson Actor Actor,
      execute Deployment.step (.start single_worker [orders_event none 1, orders_event none 2]
        [(("billing", "orders", none), 0)]) fair_restarting = some d ∧
        d.checkpoints.map Prod.snd = [0, 1, 3] := ⟨_, rfl, rfl⟩
  have hresumable : Resumable single_worker.registry [(("billing", "orders", none), 0)]
      (orders_handler (some "billing") none .Durable 0) := billing_resumable
  exact ⟨d, hexecute, hcheckpoints, one_fair_worker_delivers_at_least_once (Nat.le_refl 1) hresumable
    (by simp [Numbered, orders_event]) (execute_steps fair_restarting (by decide) hexecute)⟩

end photon_valence_identity.executor
