import PhotonValence.Executor.Fifo
import PhotonValence.Executor.Outcome
import PhotonValence.Slots.Blocks

open photon_backend valence transition slots

namespace photon_valence_identity.executor

/-- The dispatches of a state run to their end one after the other, in the
given order and with the given answers of the handlers and the services. -/
def State.in_sequence {Value Actor Valence : Type} (s : State Value Valence) (env : DispatchEnv Value Actor Valence)
    (order : List Nat) (answers : Nat → DispatchAnswers) : List (Nat × Effect Value Valence) :=
  blocks order fun i => (s.tasks[i]?.map fun task => dispatch_handler env task.args (answers i)).getD []

/-- The dispatches of `order`, and no others, have got their permits, in this
order, each after the one before it had ended. -/
structure OneByOne {Value Valence : Type} (s : State Value Valence) (order : List Nat) : Prop where
  nodup : order.Nodup
  begun : ∀ (i : Nat) (task : DispatchTask Value Valence), s.tasks[i]? = some task →
    (i ∈ order ↔ task.pc.waiting = false)
  spawned : ∀ i ∈ order, i < s.tasks.length
  ended : ∀ i ∈ order.dropLast, ∀ task ∈ s.tasks[i]?, task.pc.ended = true
  trace_eq : s.trace = blocks order s.log

/-- A dispatch that has got a permit and has none any more has ended. -/
theorem Pc.ended_of_begun {Valence : Type} {pc : Pc Valence} (hbegun : pc.waiting = false)
    (hfree : pc.holds_permit = false) : pc.ended = true := by
  cases pc <;> simp_all [Pc.waiting, Pc.holds_permit, Pc.ended]

section

variable {Value Actor Valence : Type} {env : DispatchEnv Value Actor Valence} {args : DispatchArgs Value}

/-- What a dispatch has done so far is the beginning of a call of
`dispatch_handler`, and all of it once the dispatch has ended. -/
theorem Ledger.exists_dispatch_handler {pc : Pc Valence} {log : List (Effect Value Valence)}
    (hledger : Ledger env args pc log) :
    ∃ answers, log <+: dispatch_handler env args answers ∧
      (pc.ended = true → log = dispatch_handler env args answers) := by
  obtain ⟨answers, hagrees⟩ := hledger.exists_answers
  exact ⟨answers, hledger.prefix_dispatch_handler hagrees, fun hended => hledger.eq_dispatch_handler hended hagrees⟩

end

namespace OneByOne

theorem start {Value Actor Valence : Type} (self : Executor Value Actor Valence) : OneByOne self.start [] where
  nodup := .nil
  begun := by simp [Executor.start]
  spawned := by simp
  ended := by simp
  trace_eq := rfl

theorem exists_task {Value Valence : Type} {s : State Value Valence} {order : List Nat} (hserial : OneByOne s order)
    {i : Nat} (hi : i ∈ order) : ∃ task, s.tasks[i]? = some task :=
  ⟨_, List.getElem?_eq_getElem (hserial.spawned i hi)⟩

/-- While a dispatch is under way it is the last of the order. -/
theorem eq_concat {Value Valence : Type} {s : State Value Valence} {order : List Nat} (hserial : OneByOne s order)
    {i : Nat} {task : DispatchTask Value Valence} (htask : s.tasks[i]? = some task)
    (hholds : task.pc.holds_permit = true) : ∃ earlier, order = earlier ++ [i] := by
  have hbegun : task.pc.waiting = false := by
    cases hpc : task.pc <;> simp [hpc, Pc.holds_permit, Pc.waiting] at hholds ⊢
  have hmember := (hserial.begun i task htask).mpr hbegun
  obtain rfl | ⟨earlier, last, rfl⟩ := List.eq_nil_or_concat' order
  · cases hmember
  · obtain hearlier | hlast := List.mem_append.mp hmember
    · have hended := hserial.ended i (by rwa [List.dropLast_concat]) task htask
      cases hpc : task.pc <;> simp [hpc, Pc.holds_permit, Pc.ended] at hholds hended
    · cases List.mem_singleton.mp hlast
      exact ⟨earlier, rfl⟩

/-- Where the dispatches stand may change as long as none begins, none that was
under way is undone and the trace stays. -/
theorem of_tasks {Value Valence : Type} {s s' : State Value Valence} {order : List Nat} (hserial : OneByOne s order)
    (htrace : s'.trace = s.trace) (hfresh : ∀ (i : Nat) (task : DispatchTask Value Valence),
      s'.tasks[i]? = some task → s.tasks[i]? = some task ∨ s.tasks.length ≤ i ∧ task.pc = .acquire)
    (hlength : s.tasks.length ≤ s'.tasks.length) : OneByOne s' order where
  nodup := hserial.nodup
  begun := by
    intro i task htask
    obtain hold | ⟨hle, hpc⟩ := hfresh i task htask
    · exact hserial.begun i task hold
    · rw [hpc]
      refine iff_of_false (fun hmember => ?_) (by simp [Pc.waiting])
      have hbound := hserial.spawned i hmember
      omega
  spawned i hi := (hserial.spawned i hi).trans_le hlength
  ended := by
    intro i hi task htask
    obtain hold | ⟨hle, _⟩ := hfresh i task htask
    · exact hserial.ended i hi task hold
    · have hbound := hserial.spawned i (List.dropLast_subset order hi)
      omega
  trace_eq := by
    have hlog : s'.log = s.log := by
      funext i
      simp only [State.log, htrace]
    rw [htrace, hlog]
    exact hserial.trace_eq

/-- A dispatch gets its permit when all that had theirs have ended. -/
theorem acquired {Value Actor Valence : Type} {self : Executor Value Actor Valence} {s : State Value Valence}
    {order : List Nat} (hsound : Sound self s) (hserial : OneByOne s order)
    (hnone : ∀ task ∈ s.tasks, task.pc.holds_permit = false) {i permits : Nat}
    {task : DispatchTask Value Valence} (htask : s.tasks[i]? = some task) (hpc : task.pc = .acquire) :
    OneByOne { s with
      permits
      tasks := s.tasks.set i { task with pc := .gate }
      trace := s.trace ++ ([] : List (Effect Value Valence)).map (i, ·) } (order ++ [i]) := by
  have hbound := (List.getElem?_eq_some_iff.mp htask).1
  have hfresh : i ∉ order := by
    intro hmember
    have hbegun := (hserial.begun i task htask).mp hmember
    rw [hpc] at hbegun
    cases hbegun
  have htrace : s.trace ++ ([] : List (Effect Value Valence)).map (i, ·) = s.trace := List.append_nil _
  refine ⟨?_, ?_, ?_, ?_, ?_⟩
  · rw [← List.concat_eq_append]
    exact hserial.nodup.concat hfresh
  · intro j other hother
    obtain ⟨rfl, rfl⟩ | ⟨hne, hold⟩ := getElem?_set_cases hother
    · simp [Pc.waiting]
    · rw [List.mem_append, List.mem_singleton, or_iff_left hne]
      exact hserial.begun j other hold
  · intro j hj
    rw [List.length_set]
    obtain hold | hlast := List.mem_append.mp hj
    · exact hserial.spawned j hold
    · cases List.mem_singleton.mp hlast
      exact hbound
  · intro j hj other hother
    rw [List.dropLast_concat] at hj
    obtain ⟨rfl, _⟩ | ⟨_, hold⟩ := getElem?_set_cases hother
    · exact absurd hj hfresh
    · exact Pc.ended_of_begun ((hserial.begun j other hold).mp hj) (hnone other (List.mem_of_getElem? hold))
  · have hlog : s.log i = [] := by
      have hledger := hsound.ledger i task htask
      rw [hpc] at hledger
      generalize s.log i = log at hledger
      cases hledger
      rfl
    simp only [htrace]
    exact hserial.trace_eq.trans (blocks_concat_nil hlog).symm

/-- The dispatch under way takes a turn. -/
theorem advanced {Value Actor Valence : Type} {self : Executor Value Actor Valence} {s : State Value Valence}
    {order : List Nat} (hserial : OneByOne s order) {i permits : Nat} {turn : Turn}
    {task : DispatchTask Value Valence} {pc' : Pc Valence} {effects : List (Effect Value Valence)}
    (htask : s.tasks[i]? = some task) (hholds : task.pc.holds_permit = true)
    (hmoves : Moves self.toDispatchEnv task.args task.pc turn pc' effects) :
    OneByOne { s with
      permits
      tasks := s.tasks.set i { task with pc := pc' }
      trace := s.trace ++ effects.map (i, ·) } order := by
  obtain ⟨earlier, rfl⟩ := hserial.eq_concat htask hholds
  have hothers : ∀ j ∈ earlier, j ≠ i := fun j hj => (List.nodup_append.mp hserial.nodup).2.2 j hj i (.head _)
  refine ⟨hserial.nodup, ?_, ?_, ?_, ?_⟩
  · intro j other hother
    obtain ⟨rfl, rfl⟩ | ⟨_, hold⟩ := getElem?_set_cases hother
    · simp [hmoves.waiting_eq_false]
    · exact hserial.begun j other hold
  · intro j hj
    rw [List.length_set]
    exact hserial.spawned j hj
  · intro j hj other hother
    obtain ⟨rfl, _⟩ | ⟨_, hold⟩ := getElem?_set_cases hother
    · rw [List.dropLast_concat] at hj
      exact absurd rfl (hothers j hj)
    · exact hserial.ended j hj other hold
  · have hgrown : blocks (earlier ++ [i]) (fun j =>
        ((s.trace ++ effects.map (i, ·)).filter fun entry => entry.1 = j).map Prod.snd) =
          blocks (earlier ++ [i]) s.log ++ effects.map (i, ·) := by
      refine blocks_concat_append (fun j hj => ?_) (log_append_self s.trace i effects)
      exact log_append_ne s.trace (hothers j hj) effects
    exact (congrArg (· ++ effects.map (i, ·)) hserial.trace_eq).trans hgrown.symm

/-- With one worker every step keeps the order or adds the dispatch that gets
its permit. -/
theorem step {Value Actor Valence : Type} {self : Executor Value Actor Valence} {s s' : State Value Valence}
    {action : Action Value} {order : List Nat} (hpool : self.worker_pool ≤ 1) (hsound : Sound self s)
    (hserial : OneByOne s order) (hstep : self.step s action = some s') :
    OneByOne s' order ∨ ∃ i task, action = .dispatch i .acquire ∧ s.tasks[i]? = some task ∧
      task.pc.waiting = true ∧ OneByOne s' (order ++ [i]) := by
  cases Executor.transition_of_step hstep with
  | @dispatch i turn task pc' effects permits htask hmoves hpermits =>
    obtain hwaiting | hholds | hended := task.pc.waiting_or_holds_or_ended
    · right
      cases hmoves.acquire_of_waiting hwaiting
      have hpc := Pc.eq_acquire_of_waiting hwaiting
      have hnone : ∀ task ∈ s.tasks, task.pc.holds_permit = false := by
        have hfree : s.permits ≠ 0 := by
          intro hzero
          simp [hpc, permits_after, hzero] at hpermits
        have hheld := hsound.permits_eq
        have hcount : s.tasks.countP (fun task => task.pc.holds_permit) = 0 := by omega
        simpa using List.countP_eq_zero.mp hcount
      refine ⟨i, task, rfl, htask, hwaiting, ?_⟩
      rw [hpc] at hmoves
      cases hmoves
      exact hserial.acquired hsound hnone htask hpc
    · exact .inl (hserial.advanced htask hholds hmoves)
    · rw [hmoves.not_ended] at hended
      cases hended
  | group =>
    refine .inl (hserial.of_tasks rfl ?_ (by simp))
    intro i task htask
    obtain hold | ⟨hle, hnew⟩ := getElem?_append_cases htask
    · exact .inl hold
    · obtain ⟨_, _, rfl⟩ := Option.map_eq_some_iff.mp (Option.mem_toList.mp (List.mem_of_getElem? hnew))
      exact .inr ⟨hle, rfl⟩
  | _ => exact .inl (hserial.of_tasks rfl (fun _ _ htask => .inl htask) (Nat.le_refl _))

/-- What has been done so far is the beginning of the calls of
`dispatch_handler` one after the other, and all of them while no dispatch is
under way. -/
theorem runs_in_sequence {Value Actor Valence : Type} {self : Executor Value Actor Valence}
    {s : State Value Valence} {order : List Nat} (hsound : Sound self s) (hserial : OneByOne s order) :
    ∃ answers, s.trace <+: s.in_sequence self.toDispatchEnv order answers ∧
      ((∀ task ∈ s.tasks, task.pc.holds_permit = false) →
        s.trace = s.in_sequence self.toDispatchEnv order answers) := by
  have hcalls : ∀ i, ∃ answers, ∀ task ∈ s.tasks[i]?,
      s.log i <+: dispatch_handler self.toDispatchEnv task.args answers ∧
        (task.pc.ended = true → s.log i = dispatch_handler self.toDispatchEnv task.args answers) := by
    intro i
    cases htask : s.tasks[i]? with
    | none => exact ⟨⟨.Ok, true, true⟩, fun _ hother => by cases hother⟩
    | some task =>
      obtain ⟨answers, hcall⟩ := (hsound.ledger i task htask).exists_dispatch_handler
      exact ⟨answers, fun _ hother => Option.some.inj hother ▸ hcall⟩
  choose answers hcalls using hcalls
  have hwhole : ∀ i task, s.tasks[i]? = some task → task.pc.ended = true →
      s.log i = (s.tasks[i]?.map fun task => dispatch_handler self.toDispatchEnv task.args (answers i)).getD [] := by
    intro i task htask hended
    rw [htask]
    exact (hcalls i task htask).2 hended
  refine ⟨answers, ?_, fun hnone => ?_⟩
  · rw [hserial.trace_eq, State.in_sequence]
    obtain rfl | ⟨earlier, last, rfl⟩ := List.eq_nil_or_concat' order
    · exact List.prefix_refl _
    · apply blocks_concat_prefix
      · intro j hj
        obtain ⟨task, htask⟩ := hserial.exists_task (List.mem_append_left [last] hj)
        exact hwhole j task htask (hserial.ended j (by rwa [List.dropLast_concat]) task htask)
      · obtain ⟨task, htask⟩ := hserial.exists_task (List.mem_append_right earlier (.head _))
        rw [htask]
        exact (hcalls last task htask).1
  · rw [hserial.trace_eq, State.in_sequence]
    refine blocks_congr fun j hj => ?_
    obtain ⟨task, htask⟩ := hserial.exists_task hj
    have hbegun := (hserial.begun j task htask).mp hj
    exact hwhole j task htask (Pc.ended_of_begun hbegun (hnone task (List.mem_of_getElem? htask)))

end OneByOne

/-- A pool of one takes the concurrency away. Under every schedule the effects
of a run are those of calling `dispatch_handler` for one dispatch after the
other, in the order of their permits, the last call possibly unfinished. -/
theorem one_worker_in_sequence {Value Actor Valence : Type} {self : Executor Value Actor Valence}
    {s : State Value Valence} (hpool : self.worker_pool ≤ 1) (hreachable : self.Reachable anyStep s) :
    ∃ order answers, OneByOne s order ∧ s.trace <+: s.in_sequence self.toDispatchEnv order answers ∧
      ((∀ task ∈ s.tasks, task.pc.holds_permit = false) →
        s.trace = s.in_sequence self.toDispatchEnv order answers) := by
  have hserial : ∃ order, OneByOne s order := by
    apply Steps.invariant_along hreachable
    · rintro before action after hbefore ⟨order, hserial⟩ _ hstep
      obtain hkept | ⟨i, _, _, _, _, hadded⟩ := hserial.step hpool (Executor.Reachable.sound hbefore) hstep
      · exact ⟨order, hkept⟩
      · exact ⟨order ++ [i], hadded⟩
    · exact ⟨[], .start self⟩
  obtain ⟨order, hserial⟩ := hserial
  obtain ⟨answers, hruns⟩ := hserial.runs_in_sequence hreachable.sound
  exact ⟨order, answers, hserial, hruns⟩

def single_worker : Executor ActorJson Actor Actor := { billing_executor with worker_pool := 1 }

/-- Two events; the second dispatch gets the permit first, and its checkpoint is
recorded before the first dispatch begins. -/
def taking_turns : List (Action ActorJson) :=
  [.spawn_group, .group 0 (.lookup (.ok none)), .group 0 .subscribe,
    .group 0 (.next (some (.ok (orders_event none 1)))), .group 0 .spawn, .group 0 .spawn,
    .group 0 (.next (some (.ok (orders_event none 2)))), .group 0 .spawn, .group 0 .spawn,
    .dispatch 1 .acquire, .dispatch 1 .gate, .dispatch 1 .build, .dispatch 1 .invoke,
    .dispatch 1 (.returned .Ok), .dispatch 1 .coalescer_record, .dispatch 1 (.recorded true),
    .dispatch 0 .acquire, .dispatch 0 .gate, .dispatch 0 .build]

theorem one_worker_in_sequence_overtaken : ∃ s order answers,
    execute single_worker.step single_worker.start taking_turns = some s ∧ OneByOne s order ∧
      s.trace <+: s.in_sequence single_worker.toDispatchEnv order answers ∧
      ((∀ task ∈ s.tasks, task.pc.holds_permit = false) →
        s.trace = s.in_sequence single_worker.toDispatchEnv order answers) := by
  obtain ⟨s, hexecute⟩ : ∃ s, execute single_worker.step single_worker.start taking_turns = some s := ⟨_, rfl⟩
  obtain ⟨order, answers, hruns⟩ := one_worker_in_sequence (Nat.le_refl 1) (execute_anyStep taking_turns hexecute)
  exact ⟨s, order, answers, hexecute, hruns⟩

end photon_valence_identity.executor
