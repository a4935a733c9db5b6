import PhotonValence.Executor.Pairs

open photon_backend transition slots

namespace photon_valence_identity.executor

/-- A guard asked of the turns of one group only. -/
def OfGroup {Value Valence : Type} (g : Nat) (guard : State Value Valence → Action Value → Prop)
    (s : State Value Valence) : Action Value → Prop
  | .group g' turn => g' = g → guard s (.group g' turn)
  | _ => True

/-- A guard asked of the dispatches of one handler only. -/
def OfHandler {Value Valence : Type} (g k : Nat) (guard : State Value Valence → Action Value → Prop)
    (s : State Value Valence) : Action Value → Prop
  | .dispatch i turn => ∀ task ∈ s.tasks[i]?, task.group = g → task.entry = k → guard s (.dispatch i turn)
  | _ => True

instance {Value Valence : Type} (g : Nat) (guard : State Value Valence → Action Value → Prop)
    [∀ s action, Decidable (guard s action)] (s : State Value Valence) (action : Action Value) :
    Decidable (OfGroup g guard s action) :=
  match action with
  | .group g' turn => inferInstanceAs (Decidable (g' = g → guard s (.group g' turn)))
  | .spawn_group | .dispatch _ _ | .abort | .cancel _ => instDecidableTrue

theorem ofGroup_dispatch {Value Valence : Type} (g : Nat) (guard : State Value Valence → Action Value → Prop)
    (s : State Value Valence) (i : Nat) (turn : Turn) : OfGroup g guard s (.dispatch i turn) :=
  trivial

/-- Streams deliver events in the order of their seq: a subscription task
pulls an event that comes after all it has pulled before. -/
def Increasing {Value Valence : Type} (s : State Value Valence) : Action Value → Prop
  | .group g (.next (some (.ok ev))) =>
    ∀ group ∈ s.groups[g]?, ∀ earlier ∈ group.pulled, earlier.seq < ev.seq
  | _ => True

instance {Value Valence : Type} (s : State Value Valence) (action : Action Value) :
    Decidable (Increasing s action) :=
  match action with
  | .group g (.next (some (.ok ev))) =>
    inferInstanceAs (Decidable (∀ group ∈ s.groups[g]?, ∀ earlier ∈ group.pulled, earlier.seq < ev.seq))
  | .group _ (.next none) | .group _ (.next (some (.error _))) => instDecidableTrue
  | .group _ (.lookup _) | .group _ .subscribe | .group _ .spawn => instDecidableTrue
  | .spawn_group | .dispatch _ _ | .abort | .cancel _ => instDecidableTrue

/-- The events group `g` has pulled have increasing seq. -/
def State.Ordered {Value Valence : Type} (s : State Value Valence) (g : Nat) : Prop :=
  ∀ group : GroupTask Value, s.groups[g]? = some group →
    group.pulled.Pairwise fun first second => first.seq < second.seq

theorem Executor.Transition.ordered {Value Actor Valence : Type} {self : Executor Value Actor Valence}
    {s s' : State Value Valence} {action : Action Value} (htransition : self.Transition s action s') {g : Nat}
    (hincreasing : OfGroup g Increasing s action) (hordered : s.Ordered g) : s'.Ordered g := by
  intro group' hgroup'
  cases htransition.group_change hgroup' with
  | stays hgroup => exact hordered group' hgroup
  | fresh _ hpulled =>
    rw [hpulled]
    exact .nil
  | @moves group _ turn _ hgroup haction hmoves =>
    by_cases hpull : ∃ ev, turn = .next (some (.ok ev))
    · obtain ⟨ev, rfl⟩ := hpull
      subst haction
      rw [hmoves.pulled_pull, List.pairwise_append]
      refine ⟨hordered group hgroup, List.pairwise_singleton _ _, ?_⟩
      intro earlier hearlier last hlast
      rw [List.mem_singleton.mp hlast]
      exact hincreasing rfl group hgroup earlier hearlier
    · rw [hmoves.pulled_eq fun ev heq => hpull ⟨ev, heq⟩]
      exact hordered group hgroup
  | @cancelled group hgroup _ =>
    have hkept : ({ group with pc := .cancelled } : GroupTask Value).pulled.Sublist group.pulled := by
      simp [GroupTask.pulled, GroupTask.current]
    exact List.Pairwise.sublist hkept (hordered group hgroup)

theorem Executor.Reachable.ordered {Value Actor Valence : Type} {self : Executor Value Actor Valence}
    {ok : State Value Valence → Action Value → Prop} {s : State Value Valence} {g : Nat}
    (hreachable : self.Reachable ok s)
    (hincreasing : ∀ state action, ok state action → OfGroup g Increasing state action) : s.Ordered g := by
  apply Steps.invariant hreachable
  · intro before action after hordered hok hstep
    exact (transition_of_step hstep).ordered (hincreasing before action hok) hordered
  · simp [State.Ordered, start]

/-- In a group, the order of the pulled events is the order of their seq. -/
theorem State.Ordered.seq_lt_iff {Value Valence : Type} {s : State Value Valence} {g : Nat}
    (hordered : s.Ordered g) {o o' k k' : Nat} {descriptor descriptor' : HandlerDescriptor} {ev ev' : Event Value}
    (htakes : s.Takes g o k descriptor ev) (htakes' : s.Takes g o' k' descriptor' ev') :
    ev.seq < ev'.seq ↔ o < o' := by
  obtain ⟨group, hgroup, _, hpulled, _⟩ := htakes
  obtain ⟨group', hgroup', _, hpulled', _⟩ := htakes'
  cases Option.some.inj (hgroup.symm.trans hgroup')
  obtain ⟨ho, rfl⟩ := List.getElem?_eq_some_iff.mp hpulled
  obtain ⟨ho', rfl⟩ := List.getElem?_eq_some_iff.mp hpulled'
  have hpairwise := List.pairwise_iff_getElem.mp (hordered group hgroup)
  constructor
  · intro hlt
    obtain hbefore | heq | hafter := Nat.lt_trichotomy o o'
    · exact hbefore
    · subst heq
      omega
    · have hgt := hpairwise o' o ho' ho hafter
      omega
  · exact hpairwise o o' ho ho'

namespace Sound

/-- The dispatches of one handler are spawned in the order its events were
pulled. -/
theorem index_lt_iff {Value Actor Valence : Type} {self : Executor Value Actor Valence}
    {s : State Value Valence} (hsound : Sound self s) {i j : Nat} {first second : DispatchTask Value Valence}
    (hfirst : s.tasks[i]? = some first) (hsecond : s.tasks[j]? = some second)
    (hgroup : second.group = first.group) (hentry : second.entry = first.entry) :
    i < j ↔ first.occurrence < second.occurrence := by
  have hbefore : ∀ {i j : Nat} {first second : DispatchTask Value Valence}, s.tasks[i]? = some first →
      s.tasks[j]? = some second → second.group = first.group → second.entry = first.entry → i < j →
      first.occurrence < second.occurrence := by
    intro i j first second hfirst hsecond hgroup hentry hlt
    obtain hoccurrence | ⟨_, hless⟩ := hsound.before_of_lt hfirst hsecond hgroup hlt
    · exact hoccurrence
    · omega
  constructor
  · exact hbefore hfirst hsecond hgroup hentry
  · intro hoccurrence
    obtain hlt | heq | hgt := Nat.lt_trichotomy i j
    · exact hlt
    · subst heq
      cases Option.some.inj (hfirst.symm.trans hsecond)
      omega
    · have hless := hbefore hsecond hfirst hgroup.symm hentry.symm hgt
      omega

/-- Of two events a handler takes, the one pulled first already has its
dispatch when the other has one. -/
theorem served_before {Value Actor Valence : Type} {self : Executor Value Actor Valence}
    {s : State Value Valence} (hsound : Sound self s) {i o : Nat} {task : DispatchTask Value Valence}
    {descriptor : HandlerDescriptor} {ev : Event Value} (htask : s.tasks[i]? = some task)
    (htakes : s.Takes task.group o task.entry descriptor ev) (hbefore : o < task.occurrence) :
    ∃ (j : Nat) (earlier : DispatchTask Value Valence), j < i ∧ s.tasks[j]? = some earlier ∧
      earlier.Serves task.group o task.entry ∧ earlier.args = dispatch_args descriptor ev := by
  obtain ⟨j, earlier, hearlier, hserves, hargs⟩ | ⟨group, current, next, hgroup, hpc, hlast, _⟩ :=
    hsound.served_or_pending htakes
  · obtain ⟨hsame, hoccurrence, hentry⟩ := hserves
    refine ⟨j, earlier, ?_, hearlier, ⟨hsame, hoccurrence, hentry⟩, hargs⟩
    exact (hsound.index_lt_iff hearlier htask hsame.symm hentry.symm).mpr (by omega)
  · obtain ⟨_, ⟨group', hgroup', _, hpulled, _⟩, _⟩ := hsound.takes_of_getElem? htask
    cases Option.some.inj (hgroup.symm.trans hgroup')
    obtain ⟨hbound, _⟩ := List.getElem?_eq_some_iff.mp hpulled
    simp only [GroupTask.pulled, GroupTask.current, hpc, List.length_append, List.length_singleton] at hbound
    omega

/-- A pair that has its dispatch is settled exactly when the dispatch is. -/
theorem settled_iff {Value Actor Valence : Type} {self : Executor Value Actor Valence}
    {s : State Value Valence} (hsound : Sound self s) {i g o k : Nat} {task : DispatchTask Value Valence}
    (htask : s.tasks[i]? = some task) (hserves : task.Serves g o k) :
    s.Settled g o k ↔ task.pc.settled = true := by
  constructor
  · rintro ⟨other, hother, hsame, hsettled⟩
    obtain ⟨j, hj⟩ := List.mem_iff_getElem?.mp hother
    obtain ⟨rfl, rfl, rfl⟩ := hserves
    cases hsound.task_unique htask hj hsame
    cases Option.some.inj (htask.symm.trans hj)
    exact hsettled
  · exact fun hsettled => ⟨task, List.mem_of_getElem? htask, hserves, hsettled⟩

end Sound

end photon_valence_identity.executor
