import PhotonValence.Executor.Continue
import PhotonValence.Executor.Inventory
import PhotonValence.Executor.Order
import PhotonValence.Transition.Guard

open photon_backend valence transition slots

namespace photon_valence_identity.executor

/-- The checkpoint calls made so far for handler `k` of group `g` are watermarks.
Of the events the group has pulled for the handler, those of the same key
before the checkpoint are settled, and a stream resumed at the checkpoint
delivers every event that is not. -/
def Watermark {Value Valence : Type} (g k : Nat) (s : State Value Valence) : Prop :=
  ∀ (i : Nat) (name topic_name : String) (topic_key : Option String) (seq : Int)
    (task : DispatchTask Value Valence),
    (i, .coalescer_record name topic_name topic_key seq) ∈ s.trace → s.tasks[i]? = some task →
      task.group = g → task.entry = k → ∀ o descriptor ev, s.Takes g o k descriptor ev →
        (ev.seq < seq → ev.topic_key = topic_key → s.Settled g o k) ∧
        (¬ s.Settled g o k → delivers_retained (some seq) ev)

/-- A durable named handler returns Ok for an event only when its dispatches
that were spawned earlier are settled. -/
def ReturnsInOrder {Value Valence : Type} (s : State Value Valence) : Action Value → Prop
  | .dispatch i (.returned .Ok) =>
    ∀ task ∈ s.tasks[i]?, task.args.is_durable = true → task.args.subscription_name ≠ none →
      ∀ j < i, ∀ earlier ∈ s.tasks[j]?, earlier.group = task.group → earlier.entry = task.entry →
        earlier.pc.settled = true
  | _ => True

instance {Value Valence : Type} (s : State Value Valence) (action : Action Value) :
    Decidable (ReturnsInOrder s action) :=
  match action with
  | .dispatch i (.returned .Ok) =>
    inferInstanceAs (Decidable (∀ task ∈ s.tasks[i]?, task.args.is_durable = true →
      task.args.subscription_name ≠ none → ∀ j < i, ∀ earlier ∈ s.tasks[j]?, earlier.group = task.group →
        earlier.entry = task.entry → earlier.pc.settled = true))
  | .dispatch _ (.returned (.Err _)) | .dispatch _ (.returned .Panic) => instDecidableTrue
  | .dispatch _ .acquire | .dispatch _ .gate | .dispatch _ .build | .dispatch _ .invoke => instDecidableTrue
  | .dispatch _ (.dlq_record _) | .dispatch _ .coalescer_record | .dispatch _ (.recorded _) => instDecidableTrue
  | .spawn_group | .group _ _ | .abort | .cancel _ => instDecidableTrue

/-- Whenever a durable named dispatch of handler `k` of group `g` has returned Ok,
the dispatches of the handler spawned before it are settled. -/
def State.InOrder {Value Valence : Type} (s : State Value Valence) (g k : Nat) : Prop :=
  ∀ (i j : Nat) (task earlier : DispatchTask Value Valence), s.tasks[i]? = some task →
    s.tasks[j]? = some earlier → j < i → task.group = g → task.entry = k → earlier.group = task.group →
    earlier.entry = task.entry → task.args.is_durable = true → task.args.subscription_name ≠ none →
    task.pc.returned_ok = true → earlier.pc.settled = true

theorem Executor.Transition.in_order {Value Actor Valence : Type} {self : Executor Value Actor Valence}
    {s s' : State Value Valence} {action : Action Value} (htransition : self.Transition s action s') {g k : Nat}
    (hreturns : OfHandler g k ReturnsInOrder s action) (horder : s.InOrder g k) : s'.InOrder g k := by
  intro i j task' earlier' htask' hearlier' hlt howner hplace hgroup hentry hdurable hname hreturned
  obtain ⟨task, htask, hspawn, hreturning⟩ := htransition.returned_ok_origin htask' hreturned
  obtain ⟨hbound, _⟩ := List.getElem?_eq_some_iff.mp htask
  have hearlier := List.getElem?_eq_getElem (Nat.lt_trans hlt hbound)
  obtain ⟨pc', hafter, hpc⟩ := htransition.task hearlier
  cases Option.some.inj (hafter.symm.trans hearlier')
  rw [hspawn] at howner hplace hgroup hentry hdurable hname
  have hbefore : s.tasks[j].pc.settled = true := by
    obtain hold | hnow := hreturning
    · exact horder i j task _ htask hearlier hlt howner hplace hgroup hentry hdurable hname hold
    · subst hnow
      exact hreturns task htask howner hplace task htask hdurable hname j hlt _ hearlier hgroup hentry
  obtain hsame | ⟨_, _, _, hmoves⟩ := hpc
  · rw [hsame]
    exact hbefore
  · exact hmoves.settled hbefore

theorem Executor.Reachable.in_order {Value Actor Valence : Type} {self : Executor Value Actor Valence}
    {ok : State Value Valence → Action Value → Prop} {s : State Value Valence} {g k : Nat}
    (hreachable : self.Reachable ok s)
    (hreturns : ∀ state action, ok state action → OfHandler g k ReturnsInOrder state action) : s.InOrder g k := by
  apply Steps.invariant hreachable
  · intro before action after horder hok hstep
    exact (transition_of_step hstep).in_order (hreturns before action hok) horder
  · simp [State.InOrder, start]

/-- In-order returns over an increasing stream make every checkpoint call a
watermark. -/
theorem Sound.watermark {Value Actor Valence : Type} {self : Executor Value Actor Valence}
    {s : State Value Valence} (hsound : Sound self s) {g k : Nat} (hordered : s.Ordered g)
    (horder : s.InOrder g k) : Watermark g k s := by
  rintro i name topic_name topic_key seq task hrecord htask rfl rfl o descriptor ev htakes
  obtain ⟨caller, hcaller, hpc, hdurable, hname, _, _, hseq⟩ := hsound.coalescer_record_mem hrecord
  cases Option.some.inj (htask.symm.trans hcaller)
  have hreturned := Pc.returned_ok_of_recorded hpc
  obtain ⟨own, hown, _⟩ := hsound.takes_of_getElem? htask
  have hbefore : o < task.occurrence → s.Settled task.group o task.entry := by
    intro hless
    obtain ⟨j, earlier, hlt, hearlier, hserves, _⟩ := hsound.served_before htask htakes hless
    rw [hsound.settled_iff hearlier hserves]
    exact horder i j task earlier htask hearlier hlt rfl rfl hserves.1 hserves.2.2 hdurable (by simp [hname]) hreturned
  have hself : s.Settled task.group task.occurrence task.entry :=
    (hsound.settled_iff htask ⟨rfl, rfl, rfl⟩).mpr (Pc.settled_of_returned_ok hreturned)
  constructor
  · intro hless _
    rw [hseq] at hless
    exact hbefore ((hordered.seq_lt_iff htakes hown).mp hless)
  · intro hunsettled
    rw [delivers_retained_some, hseq]
    obtain hafter | heq | hless := Nat.lt_trichotomy task.occurrence o
    · exact (hordered.seq_lt_iff hown htakes).mpr hafter
    · rw [heq] at hself
      exact absurd hself hunsettled
    · exact absurd (hbefore hless) hunsettled

/-- The checkpoints of a handler are watermarks exactly as far as the handler
returns in order: nothing in the executor makes them. Only the stream of the
handler's own group has to be increasing. -/
theorem watermark_exactly_in_order {Value Actor Valence : Type} (self : Executor Value Actor Valence) (g k : Nat) :
    ExactGuard self.step (OfGroup g Increasing) (OfHandler g k ReturnsInOrder) self.start (Watermark g k) where
  keeps s hrun := by
    have hreachable : self.Reachable (fun state action =>
      OfGroup g Increasing state action ∧ OfHandler g k ReturnsInOrder state action) s := hrun
    exact hreachable.sound.watermark (hreachable.ordered fun _ _ hok => hok.1)
      (hreachable.in_order fun _ _ hok => hok.2)
  needed before action after hrun hincreasing hviolates hstep := by
    have hreachable : self.Reachable (OfGroup g Increasing) before := hrun
    have hsound := hreachable.sound
    unfold OfHandler at hviolates
    split at hviolates
    · rename_i i turn
      simp only [Option.mem_def, not_forall] at hviolates
      obtain ⟨task, htask, rfl, rfl, hviolates⟩ := hviolates
      unfold ReturnsInOrder at hviolates
      split at hviolates
      · rename_i heq
        cases heq
        simp only [Option.mem_def, not_forall] at hviolates
        obtain ⟨owner, howner, hdurable, hname, j, hlt, earlier, hearlier, hgroup, hentry, hunsettled⟩ := hviolates
        cases Option.some.inj (htask.symm.trans howner)
        obtain ⟨name, hname⟩ := Option.ne_none_iff_exists'.mp hname
        obtain ⟨mover, pc', effects, hmover, hmoves, hafter, _, hreturn⟩ := Executor.step_dispatch_cases hstep
        cases Option.some.inj (htask.symm.trans hmover)
        obtain ⟨finish, hrecorded, hrecord, hmem⟩ := (Executor.sound_step hsound hstep).can_record
          (ofGroup_dispatch task.group Increasing) hafter hmoves.returned_ok_of_returned.1 hdurable hname
        have hreachable' : self.Reachable (OfGroup task.group Increasing) finish :=
          (hreachable.tail hincreasing hstep).trans hrecorded
        have honly : before.MovesOnly finish i := hreturn.trans hrecord
        refine ⟨finish, hrecorded, fun hwatermark => ?_⟩
        -- the earlier dispatch is still open, and its event lies before the checkpoint
        obtain ⟨_, hself⟩ := honly.mover task htask
        have hearlier' : finish.tasks[j]? = some earlier := by
          rw [honly.others_eq j (by omega)]
          exact hearlier
        obtain ⟨_, htakes, _⟩ := hreachable'.sound.takes_of_getElem? hearlier'
        obtain ⟨_, hown, _⟩ := hreachable'.sound.takes_of_getElem? hself
        rw [hgroup, hentry] at htakes
        have hopen : ¬ finish.Settled task.group earlier.occurrence task.entry := by
          rw [hreachable'.sound.settled_iff hearlier' ⟨hgroup, rfl, hentry⟩]
          exact hunsettled
        have hdelivered := (hwatermark i _ _ _ _ _ hmem hself rfl rfl _ _ _ htakes).2 hopen
        rw [delivers_retained_some] at hdelivered
        have hoccurrence := (hsound.index_lt_iff hearlier htask hgroup.symm hentry.symm).mp hlt
        have hbefore := ((hreachable'.ordered fun _ _ hok => hok).seq_lt_iff htakes hown).mpr hoccurrence
        exact absurd hdelivered (by simpa using hbefore.le)
      · exact absurd trivial hviolates
    · exact absurd trivial hviolates

/-- A run in which the second of two events overtakes the first, which has not
even got its permit. -/
def overtaking : List (Action ActorJson) :=
  [.spawn_group, .group 0 (.lookup (.ok none)), .group 0 .subscribe,
    .group 0 (.next (some (.ok (orders_event none 1)))), .group 0 .spawn, .group 0 .spawn,
    .group 0 (.next (some (.ok (orders_event none 2)))), .group 0 .spawn, .group 0 .spawn,
    .dispatch 1 .acquire, .dispatch 1 .gate, .dispatch 1 .build, .dispatch 1 .invoke,
    .dispatch 1 (.returned .Ok), .dispatch 1 .coalescer_record]

def overtaken : State ActorJson Actor :=
  (execute billing_executor.step billing_executor.start overtaking).get rfl

theorem watermark_overtaken :
    billing_executor.Reachable (OfGroup 0 Increasing) overtaken ∧ ¬ Watermark 0 0 overtaken := by
  have hreachable : billing_executor.Reachable (OfGroup 0 Increasing) overtaken :=
    execute_steps overtaking (by decide) (Option.some_get _).symm
  have hwaiting : overtaken.tasks[0]? = some ⟨⟨0, 0, 0,
    dispatch_args (orders_handler (some "billing") none .Durable 0) (orders_event none 1)⟩, .acquire⟩ := rfl
  have hopen : ¬ overtaken.Settled 0 0 0 := by
    rw [hreachable.sound.settled_iff hwaiting ⟨rfl, rfl, rfl⟩]
    simp [Pc.settled]
  have hrecord : overtaken.trace[3]? = some (1, .coalescer_record "billing" "orders" none 2) := rfl
  refine ⟨hreachable, fun hwatermark => hopen ?_⟩
  exact (hwatermark 1 _ _ _ _ _ (List.mem_of_getElem? hrecord) rfl rfl rfl 0 _ (orders_event none 1)
    ⟨_, rfl, rfl, rfl, rfl⟩).1 (by decide) rfl

end photon_valence_identity.executor
