import PhotonValence.Executor.Routing
import PhotonValence.Executor.Sound
import PhotonValence.Transition.View

open photon_backend valence transition slots

namespace photon_valence_identity.executor

/-- The executor over the handlers of one key only, with a pool of the same
size. -/
def Executor.alone {Value Actor Valence : Type} (self : Executor Value Actor Valence) (key : TopicKey) :
    Executor Value Actor Valence :=
  .of_inventory self.toDispatchEnv (self.registry.handlers_for_topic_key key.1 key.2) self.worker_pool

/-- A dispatch as one of the first group. -/
def Spawn.alone {Value : Type} (spawn : Spawn Value) : Spawn Value :=
  { spawn with group := 0 }

def DispatchTask.alone {Value Valence : Type} (task : DispatchTask Value Valence) : DispatchTask Value Valence :=
  { task with group := 0 }

/-- The effects so far, each with the dispatch that had it. -/
def State.labelled {Value Valence : Type} (s : State Value Valence) : List (Spawn Value × Effect Value Valence) :=
  s.trace.filterMap fun entry => (s.tasks.map DispatchTask.toSpawn)[entry.1]?.map fun spawn => (spawn, entry.2)

/-- What there is of group `g` in one state is all there is in the other, in
which it is the first group. -/
structure SeenFrom {Value Valence : Type} (g : Nat) (s s' : State Value Valence) : Prop where
  groups_eq : s'.groups = s.groups[g]?.toList
  aborted_eq : s'.aborted = s.aborted
  tasks_eq : s'.tasks = (s.tasks.filter fun task => task.group = g).map DispatchTask.alone
  labelled_eq : s'.labelled =
    (s.labelled.filter fun entry => entry.1.group = g).map fun entry => (entry.1.alone, entry.2)

namespace Executor

theorem alone_handlers {Value Actor Valence : Type} (self : Executor Value Actor Valence) (key : TopicKey) :
    (self.alone key).registry.handlers_for_topic_key key.1 key.2 =
      self.registry.handlers_for_topic_key key.1 key.2 := by
  rw [HandlerRegistry.handlers_for_topic_key_eq, alone, of_inventory, HandlerRegistry.iter_auto_discover]
  apply List.filter_eq_self.mpr
  intro h hh
  simp [HandlerRegistry.topicKey_of_mem_group hh]

theorem alone_keys {Value Actor Valence : Type} {self : Executor Value Actor Valence} {key : TopicKey}
    (hkey : key ∈ self.keys) : (self.alone key).keys = [key] := by
  have hgroup := HandlerRegistry.group_ne_nil (self.keys_perm.mem_iff.mp hkey)
  obtain ⟨first, hfirst⟩ := List.exists_mem_of_ne_nil _ hgroup
  have hkeys : (self.alone key).keys.Perm [key] := by
    refine (List.perm_ext_iff_of_nodup ?_ (List.nodup_singleton key)).mpr fun other => ?_
    · exact (self.alone key).keys_perm.nodup_iff.mpr (HandlerRegistry.topic_subscription_keys_nodup _)
    · rw [(self.alone key).keys_perm.mem_iff, HandlerRegistry.mem_topic_subscription_keys_iff, alone, of_inventory,
        HandlerRegistry.iter_auto_discover, List.mem_singleton]
      constructor
      · rintro ⟨h, hh, rfl⟩
        exact HandlerRegistry.topicKey_of_mem_group hh
      · rintro rfl
        exact ⟨first, hfirst, HandlerRegistry.topicKey_of_mem_group hfirst⟩
  exact List.perm_singleton.mp hkeys

end Executor

namespace State

/-- Spawning dispatches adds no effects. -/
theorem labelled_spawned {Value Valence : Type} {s : State Value Valence}
    (hlogged : ∀ entry ∈ s.trace, entry.1 < s.tasks.length) (groups : List (GroupTask Value))
    (added : List (DispatchTask Value Valence)) :
    { s with groups, tasks := s.tasks ++ added }.labelled = s.labelled := by
  apply List.filterMap_congr
  intro entry hentry
  rw [List.map_append, List.getElem?_append_left (by simpa using hlogged entry hentry)]

/-- The effects of a turn are those of its dispatch. -/
theorem labelled_turn {Value Valence : Type} {s : State Value Valence} {i : Nat} {task : DispatchTask Value Valence}
    (htask : s.tasks[i]? = some task) (permits : Nat) (pc' : Pc Valence) (effects : List (Effect Value Valence)) :
    { s with
      permits
      tasks := s.tasks.set i { task with pc := pc' }
      trace := s.trace ++ effects.map (i, ·) }.labelled =
        s.labelled ++ effects.map fun effect => (task.toSpawn, effect) := by
  have hspawns : (s.tasks.set i { task with pc := pc' }).map DispatchTask.toSpawn =
      s.tasks.map DispatchTask.toSpawn := map_set_eq htask rfl
  simp only [labelled, hspawns, List.filterMap_append, List.filterMap_map]
  congr 1
  have heach : ∀ effect ∈ effects, ((fun entry : Nat × Effect Value Valence =>
      (s.tasks.map DispatchTask.toSpawn)[entry.1]?.map fun spawn => (spawn, entry.2)) ∘ (i, ·)) effect =
        some (task.toSpawn, effect) := by
    intro effect _
    simp [htask]
  rw [List.filterMap_congr heach]
  exact congrFun List.filterMap_eq_map' effects

end State

/-- Once `start_executor` has returned, every key has its group. -/
theorem Sound.spawned_of_returned {Value Actor Valence : Type} {self : Executor Value Actor Valence}
    {s : State Value Valence} (hsound : Sound self s) {g : Nat} {key : TopicKey} (hkey : self.keys[g]? = some key)
    (hreturned : s.unspawned = []) : g < s.groups.length := by
  have hkeys := hsound.keys_eq
  rw [hreturned, List.append_nil] at hkeys
  have hlength := congrArg List.length hkeys
  rw [List.length_map] at hlength
  rw [hlength]
  exact (List.getElem?_eq_some_iff.mp hkey).1

namespace SeenFrom

section

variable {Value Valence : Type} {g : Nat} {s s' : State Value Valence}

/-- Both sides of a turn of the group's subscription task. -/
theorem own_group (hseen : SeenFrom g s s') (hlogged : ∀ entry ∈ s.trace, entry.1 < s.tasks.length)
    (hlogged' : ∀ entry ∈ s'.trace, entry.1 < s'.tasks.length) {group : GroupTask Value}
    (hgroup : s.groups[g]? = some group) (group' : GroupTask Value) {added : List (DispatchTask Value Valence)}
    (hadded : ∀ task ∈ added, task.group = g) :
    SeenFrom g { s with groups := s.groups.set g group', tasks := s.tasks ++ added }
      { s' with groups := s'.groups.set 0 group', tasks := s'.tasks ++ added.map DispatchTask.alone } where
  groups_eq := by
    rw [hseen.groups_eq, hgroup, getElem?_set_self hgroup]
    rfl
  aborted_eq := hseen.aborted_eq
  tasks_eq := by
    have hall : added.filter (fun task => task.group = g) = added := List.filter_eq_self.mpr (by simpa using hadded)
    rw [List.filter_append, List.map_append, hall, hseen.tasks_eq]
  labelled_eq := by
    rw [State.labelled_spawned hlogged, State.labelled_spawned hlogged', hseen.labelled_eq]

/-- A turn of another group's subscription task. -/
theorem other_group (hseen : SeenFrom g s s') (hlogged : ∀ entry ∈ s.trace, entry.1 < s.tasks.length)
    {other : Nat} (hother : other ≠ g) (group' : GroupTask Value) {added : List (DispatchTask Value Valence)}
    (hadded : ∀ task ∈ added, task.group ≠ g) :
    SeenFrom g { s with groups := s.groups.set other group', tasks := s.tasks ++ added } s' where
  groups_eq := by rw [List.getElem?_set_ne hother, hseen.groups_eq]
  aborted_eq := hseen.aborted_eq
  tasks_eq := by
    have hnone : added.filter (fun task => task.group = g) = [] := List.filter_eq_nil_iff.mpr (by simpa using hadded)
    rw [List.filter_append, hnone, List.append_nil, hseen.tasks_eq]
  labelled_eq := by rw [State.labelled_spawned hlogged, hseen.labelled_eq]

/-- Both sides of a turn of one of the group's dispatches. -/
theorem own_turn (hseen : SeenFrom g s s') {i j : Nat} {task : DispatchTask Value Valence}
    (htask : s.tasks[i]? = some task) (htask' : s'.tasks[j]? = some task.alone) (hgroup : task.group = g)
    {pc' : Pc Valence}
    (hset : (s.tasks.set i { task with pc := pc' }).filter (fun task => task.group = g) =
      (s.tasks.filter fun task => task.group = g).set j { task with pc := pc' })
    (permits permits' : Nat) (effects : List (Effect Value Valence)) :
    SeenFrom g
      { s with
        permits
        tasks := s.tasks.set i { task with pc := pc' }
        trace := s.trace ++ effects.map (i, ·) }
      { s' with
        permits := permits'
        tasks := s'.tasks.set j { task.alone with pc := pc' }
        trace := s'.trace ++ effects.map (j, ·) } where
  groups_eq := hseen.groups_eq
  aborted_eq := hseen.aborted_eq
  tasks_eq := by
    rw [hset, List.map_set, hseen.tasks_eq]
    rfl
  labelled_eq := by
    have hall : (effects.map fun effect => (task.toSpawn, effect)).filter (fun entry => entry.1.group = g) =
        effects.map fun effect => (task.toSpawn, effect) := List.filter_eq_self.mpr (by simp [hgroup])
    rw [State.labelled_turn htask, State.labelled_turn htask', List.filter_append, List.map_append, hall,
      hseen.labelled_eq, List.map_map]
    rfl

/-- A turn of another group's dispatch. -/
theorem other_turn (hseen : SeenFrom g s s') {i : Nat} {task : DispatchTask Value Valence}
    (htask : s.tasks[i]? = some task) (hgroup : task.group ≠ g) (permits : Nat) (pc' : Pc Valence)
    (effects : List (Effect Value Valence)) :
    SeenFrom g
      { s with
        permits
        tasks := s.tasks.set i { task with pc := pc' }
        trace := s.trace ++ effects.map (i, ·) } s' where
  groups_eq := hseen.groups_eq
  aborted_eq := hseen.aborted_eq
  tasks_eq := by
    rw [filter_set_of_not htask (by simp [hgroup]) (by simp [hgroup]), hseen.tasks_eq]
  labelled_eq := by
    have hnone : (effects.map fun effect => (task.toSpawn, effect)).filter (fun entry => entry.1.group = g) = [] :=
      List.filter_eq_nil_iff.mpr (by simp [hgroup])
    rw [State.labelled_turn htask, List.filter_append, hnone, List.append_nil, hseen.labelled_eq]

end

/-- The group's own system has at least as many permits free. -/
theorem permits_le {Value Actor Valence : Type} {self : Executor Value Actor Valence} {key : TopicKey} {g : Nat}
    {s s' : State Value Valence} (hseen : SeenFrom g s s') (hsound : Sound self s)
    (hsound' : Sound (self.alone key) s') : s.permits ≤ s'.permits := by
  have hfewer : s'.tasks.countP (fun task => task.pc.holds_permit) ≤
      s.tasks.countP fun task => task.pc.holds_permit := by
    rw [hseen.tasks_eq, List.countP_map]
    exact List.Sublist.countP_le List.filter_sublist
  have hpermits := hsound.permits_eq
  have hpermits' : s'.permits + s'.tasks.countP (fun task => task.pc.holds_permit) = self.worker_pool :=
    hsound'.permits_eq
  omega

/-- The keys still to be spawned for the group's own system. -/
theorem unspawned_eq {Value Actor Valence : Type} {self : Executor Value Actor Valence} {key : TopicKey} {g : Nat}
    {s s' : State Value Valence} (hkey : self.keys[g]? = some key) (hseen : SeenFrom g s s')
    (hsound' : Sound (self.alone key) s') : s'.unspawned = if g < s.groups.length then [] else [key] := by
  have hkeys := hsound'.keys_eq
  rw [Executor.alone_keys (List.mem_of_getElem? hkey), hseen.groups_eq] at hkeys
  split
  · rename_i hlt
    rw [List.getElem?_eq_getElem hlt] at hkeys
    have hboth : s.groups[g].key = key ∧ s'.unspawned = [] := by simpa using hkeys
    exact hboth.2
  · rename_i hge
    rw [List.getElem?_eq_none (Nat.le_of_not_lt hge)] at hkeys
    simpa using hkeys

end SeenFrom

/-- With more permits free a task can still go on. -/
theorem permits_after_of_le {Valence : Type} {permits more taken : Nat} {before after : Pc Valence}
    (hle : permits ≤ more) (htaken : permits_after permits before after = some taken) :
    ∃ taken', permits_after more before after = some taken' := by
  cases before with
  | acquire =>
    simp only [permits_after] at htaken ⊢
    split at htaken
    · cases htaken
    · exact ⟨more - 1, if_neg (by omega)⟩
  | _ => exact ⟨_, rfl⟩

namespace SeenFrom

section

variable {Value Actor Valence : Type} {self : Executor Value Actor Valence} {key : TopicKey} {g : Nat}
  {s s' after : State Value Valence}

/-- A spawned group is the group's own, or is not seen there. -/
theorem step_spawn_group (hkey : self.keys[g]? = some key) (hsound : Sound self s)
    (hsound' : Sound (self.alone key) s') (hseen : SeenFrom g s s') {next : TopicKey} {rest : List TopicKey}
    (hkeys : s.unspawned = next :: rest) {group : GroupTask Value}
    (hgroup : group = {
      topic_name := next.1
      topic_key_filter := next.2
      handlers := self.registry.handlers_for_topic_key next.1 next.2 }) :
    SeenFrom g { s with unspawned := rest, groups := s.groups ++ [group] } s' ∨
      ∃ after', (self.alone key).Transition s' .spawn_group after' ∧
        SeenFrom g { s with unspawned := rest, groups := s.groups ++ [group] } after' := by
  by_cases hnow : s.groups.length = g
  · right
    subst hnow
    obtain rfl : next = key := by
      have hnext := hsound.keys_eq
      rw [hkeys] at hnext
      rw [← hnext] at hkey
      simpa using hkey
    have hunspawned := hseen.unspawned_eq hkey hsound'
    rw [if_neg (Nat.lt_irrefl _)] at hunspawned
    have hfirst : s'.groups = [] := by
      rw [hseen.groups_eq, List.getElem?_eq_none (Nat.le_refl _)]
      rfl
    have hsome := Executor.no_empty_group hsound' hunspawned
    refine ⟨_, .spawn_group hunspawned hsome, ⟨?_, hseen.aborted_eq, hseen.tasks_eq, hseen.labelled_eq⟩⟩
    simp [hfirst, hgroup, self.alone_handlers]
  · refine .inl ⟨?_, hseen.aborted_eq, hseen.tasks_eq, hseen.labelled_eq⟩
    rw [hseen.groups_eq]
    obtain hlt | hge := Nat.lt_or_ge g s.groups.length
    · rw [List.getElem?_append_left hlt]
    · rw [List.getElem?_eq_none hge, List.getElem?_eq_none (by rw [List.length_append, List.length_singleton]; omega)]

/-- A step of the executor is a step of the group's own system, or is not seen
there. -/
theorem step {action : Action Value} (hkey : self.keys[g]? = some key) (hsound : Sound self s)
    (hsound' : Sound (self.alone key) s') (hseen : SeenFrom g s s') (hstep : self.step s action = some after) :
    SeenFrom g after s' ∨
      ∃ action' after', (self.alone key).Transition s' action' after' ∧ SeenFrom g after after' := by
  have hfirst : ∀ group, s.groups[g]? = some group → s'.groups[0]? = some group := by
    intro group hgroup
    rw [hseen.groups_eq, hgroup]
    rfl
  cases Executor.transition_of_step hstep with
  | skip_group hkeys hempty => exact absurd hempty (Executor.no_empty_group hsound hkeys)
  | spawn_group hkeys hsome =>
    obtain hunseen | ⟨after', htransition, hafter⟩ := hseen.step_spawn_group hkey hsound hsound' hkeys rfl
    · exact .inl hunseen
    · exact .inr ⟨_, after', htransition, hafter⟩
  | @group other turn group group' spawned hgroup hmoves =>
    by_cases hown : other = g
    · subst hown
      refine .inr ⟨_, _, .group (hfirst group hgroup) hmoves, ?_⟩
      cases spawned with
      | none => exact hseen.own_group hsound.logged hsound'.logged hgroup group' (by simp)
      | some dispatch =>
        have hadded : ∀ task ∈ [(⟨⟨other, group.rounds.length, dispatch.1, dispatch.2⟩, .acquire⟩ :
          DispatchTask Value Valence)], task.group = other := by simp
        exact hseen.own_group hsound.logged hsound'.logged hgroup group' hadded
    · exact .inl (hseen.other_group hsound.logged hown group' (by cases spawned <;> simp [hown]))
  | @dispatch i turn task pc' effects permits htask hmoves hpermits =>
    by_cases hown : task.group = g
    · obtain ⟨j, hj, hset⟩ : ∃ j, (s.tasks.filter fun task => task.group = g)[j]? = some task ∧
          ∀ written : DispatchTask Value Valence, decide (written.group = g) = true →
            (s.tasks.set i written).filter (fun task => task.group = g) =
              (s.tasks.filter fun task => task.group = g).set j written :=
        exists_filter_set htask (decide_eq_true hown)
      have htask' : s'.tasks[j]? = some task.alone := by
        rw [hseen.tasks_eq, List.getElem?_map, hj]
        rfl
      obtain ⟨permits', hpermits'⟩ := permits_after_of_le (hseen.permits_le hsound hsound') hpermits
      have hwritten := hset { task with pc := pc' } (decide_eq_true hown)
      exact .inr ⟨_, _, .dispatch htask' hmoves hpermits',
        hseen.own_turn htask htask' hown hwritten permits permits' effects⟩
    · exact .inl (hseen.other_turn htask hown permits pc' effects)
  | abort hreturned =>
    have hspawned := hsound.spawned_of_returned hkey hreturned
    have hunspawned := hseen.unspawned_eq hkey hsound'
    rw [if_pos hspawned] at hunspawned
    exact .inr ⟨_, _, .abort hunspawned, ⟨hseen.groups_eq, rfl, hseen.tasks_eq, hseen.labelled_eq⟩⟩
  | @cancel other group haborted hgroup hawaits =>
    have hnone : ∀ task ∈ ([] : List (DispatchTask Value Valence)), task.group = g := by simp
    have hnone' : ∀ task ∈ ([] : List (DispatchTask Value Valence)), task.group ≠ g := by simp
    by_cases hown : other = g
    · subst hown
      have hafter := hseen.own_group hsound.logged hsound'.logged hgroup { group with pc := .cancelled } hnone
      rw [List.append_nil, List.map_nil, List.append_nil] at hafter
      exact .inr ⟨_, _, .cancel (hseen.aborted_eq.trans haborted) (hfirst group hgroup) hawaits, hafter⟩
    · have hafter := hseen.other_group hsound.logged hown { group with pc := .cancelled } hnone'
      rw [List.append_nil] at hafter
      exact .inl hafter

/-- While only the group's own dispatches run, as many permits are free as in
the group's own system. -/
theorem permits_eq (hsound : Sound self s) (hsound' : Sound (self.alone key) s') (hseen : SeenFrom g s s')
    (halone : ∀ task ∈ s.tasks, task.group = g) : s'.permits = s.permits := by
  have htasks : s'.tasks = s.tasks.map DispatchTask.alone := by
    rw [hseen.tasks_eq, List.filter_eq_self.mpr (by simpa using halone)]
  have hheld : s'.tasks.countP (fun task => task.pc.holds_permit) =
      s.tasks.countP fun task => task.pc.holds_permit := by
    rw [htasks, List.countP_map]
    rfl
  have hpermits := hsound.permits_eq
  have hpermits' : s'.permits + s'.tasks.countP (fun task => task.pc.holds_permit) = self.worker_pool :=
    hsound'.permits_eq
  omega

/-- While only the group's own dispatches run, the executor can take every step
of the group's own system. -/
theorem step_back {action' : Action Value} {after' : State Value Valence} (hkey : self.keys[g]? = some key)
    (hsound : Sound self s) (hsound' : Sound (self.alone key) s') (hseen : SeenFrom g s s')
    (hreturned : s.unspawned = []) (halone : ∀ task ∈ s.tasks, task.group = g)
    (hstep : (self.alone key).step s' action' = some after') :
    ∃ action after, self.step s action = some after ∧ SeenFrom g after after' ∧ after.unspawned = [] ∧
      ∀ task ∈ after.tasks, task.group = g := by
  have hspawned : g < s.groups.length := hsound.spawned_of_returned hkey hreturned
  have hunspawned := hseen.unspawned_eq hkey hsound'
  rw [if_pos hspawned] at hunspawned
  have hfirst : ∀ g' group, s'.groups[g']? = some group → g' = 0 ∧ s.groups[g]? = some group := by
    intro g' group hgroup
    rw [hseen.groups_eq, List.getElem?_eq_getElem hspawned] at hgroup
    cases g' with
    | zero => exact ⟨rfl, (List.getElem?_eq_getElem hspawned).trans hgroup⟩
    | succ g' => simp at hgroup
  have hall : ∀ tasks : List (DispatchTask Value Valence), (∀ task ∈ tasks, task.group = g) →
      tasks.filter (fun task => task.group = g) = tasks :=
    fun tasks htasks => List.filter_eq_self.mpr (by simpa using htasks)
  cases Executor.transition_of_step hstep with
  | skip_group hkeys | spawn_group hkeys => rw [hunspawned] at hkeys; cases hkeys
  | @group g' turn group group' spawned hgroup' hmoves =>
    obtain ⟨rfl, hgroup⟩ := hfirst g' group hgroup'
    have hadded : ∀ task ∈ (spawned.map fun dispatch => (⟨⟨g, group.rounds.length, dispatch.1, dispatch.2⟩, .acquire⟩ :
        DispatchTask Value Valence)).toList, task.group = g := by
      cases spawned <;> simp
    have hafter := hseen.own_group hsound.logged hsound'.logged hgroup group' hadded
    refine ⟨_, _, (Executor.Transition.group hgroup hmoves).step_eq, ?_, hreturned, ?_⟩
    · cases spawned <;> exact hafter
    · exact List.forall_mem_append.mpr ⟨halone, hadded⟩
  | @dispatch j turn task' pc' effects permits htask' hmoves hpermits =>
    have htasks := hseen.tasks_eq
    rw [hall s.tasks halone] at htasks
    rw [htasks, List.getElem?_map] at htask'
    obtain ⟨task, htask, rfl⟩ := Option.map_eq_some_iff.mp htask'
    rw [hseen.permits_eq hsound hsound' halone] at hpermits
    have hturn : Moves self.toDispatchEnv task.args task.pc turn pc' effects := hmoves
    have hgroup := halone task (List.mem_of_getElem? htask)
    have halone' : ∀ other ∈ s.tasks.set j { task with pc := pc' }, other.group = g := by
      intro other hother
      obtain hold | rfl := List.mem_or_eq_of_mem_set hother
      · exact halone other hold
      · exact hgroup
    have hset := (hall _ halone').trans
      (congrArg (fun tasks => tasks.set j { task with pc := pc' }) (hall _ halone).symm)
    refine ⟨_, _, (Executor.Transition.dispatch htask hturn hpermits).step_eq, ?_, hreturned, halone'⟩
    exact hseen.own_turn htask (by rw [htasks, List.getElem?_map, htask]; rfl) hgroup hset _ _ effects
  | abort =>
    exact ⟨_, _, (Executor.Transition.abort hreturned).step_eq,
      ⟨hseen.groups_eq, rfl, hseen.tasks_eq, hseen.labelled_eq⟩, hreturned, halone⟩
  | @cancel g' group haborted hgroup' hawaits =>
    obtain ⟨rfl, hgroup⟩ := hfirst g' group hgroup'
    have hnone : ∀ task ∈ ([] : List (DispatchTask Value Valence)), task.group = g := by simp
    have hafter := hseen.own_group hsound.logged hsound'.logged hgroup { group with pc := .cancelled } hnone
    rw [List.append_nil, List.map_nil, List.append_nil] at hafter
    exact ⟨_, _, (Executor.Transition.cancel (hseen.aborted_eq.symm.trans haborted) hgroup hawaits).step_eq, hafter,
      hreturned, halone⟩

end

end SeenFrom

namespace Executor

/-- The group `start_executor` spawns for a key. -/
def group_for {Value Actor Valence : Type} (self : Executor Value Actor Valence) (key : TopicKey) :
    GroupTask Value where
  topic_name := key.1
  topic_key_filter := key.2
  handlers := self.registry.handlers_for_topic_key key.1 key.2

/-- The loop of `start_executor` can run to its end at once. -/
theorem spawns_all {Value Actor Valence : Type} (self : Executor Value Actor Valence) {s : State Value Valence}
    (hsound : Sound self s) : Steps self.step anyStep s
      { s with unspawned := [], groups := s.groups ++ s.unspawned.map self.group_for } := by
  induction hkeys : s.unspawned generalizing s with
  | nil =>
    have hsame : { s with unspawned := [], groups := s.groups ++ [].map self.group_for } = s := by
      rw [List.map_nil, List.append_nil, ← hkeys]
    rw [hsame]
    exact .refl s
  | cons key rest ih =>
    have hstep := (Transition.spawn_group hkeys (no_empty_group hsound hkeys)).step_eq
    have hrest := ih (sound_step hsound hstep) rfl
    rw [List.append_assoc] at hrest
    exact (Steps.single trivial hstep).trans hrest

end Executor

/-- The group's own system starts with the loop of `start_executor`. -/
theorem Executor.alone_start {Value Actor Valence : Type} {self : Executor Value Actor Valence} {key : TopicKey}
    {g : Nat} (hkey : self.keys[g]? = some key) {action : Action Value} {after' : State Value Valence}
    (hstep : (self.alone key).step (self.alone key).start action = some after') :
    SeenFrom g { self.start with unspawned := [], groups := self.keys.map self.group_for } after' := by
  have hkeys : (self.alone key).start.unspawned = [key] := alone_keys (List.mem_of_getElem? hkey)
  cases transition_of_step hstep with
  | skip_group hnext hempty => exact absurd hempty (no_empty_group (sound_start _) hnext)
  | spawn_group hnext =>
    rw [hkeys] at hnext
    obtain ⟨rfl, rfl⟩ := List.cons.inj hnext
    refine ⟨?_, rfl, rfl, rfl⟩
    simp only [List.getElem?_map, hkey, self.alone_handlers]
    rfl
  | group hgroup | cancel _ hgroup => cases hgroup
  | dispatch htask => cases htask
  | abort hreturned =>
    rw [hkeys] at hreturned
    cases hreturned

/-- A state of the executor and one of the group's own system that belong
together. -/
structure Paired {Value Actor Valence : Type} (executor : Executor Value Actor Valence) (key : TopicKey) (g : Nat)
    (s s' : State Value Valence) : Prop where
  sound : Sound executor s
  alone : Sound (executor.alone key) s'
  seen : SeenFrom g s s'

namespace Paired

variable {Value Actor Valence : Type} {self : Executor Value Actor Valence} {key : TopicKey} {g : Nat}
  {s s' : State Value Valence}

theorem start : Paired self key g self.start (self.alone key).start where
  sound := Executor.sound_start self
  alone := Executor.sound_start _
  seen := ⟨rfl, rfl, rfl, rfl⟩

theorem step {action : Action Value} {after : State Value Valence} (hkey : self.keys[g]? = some key)
    (hpaired : Paired self key g s s') (hstep : self.step s action = some after) :
    ∃ after', Steps (self.alone key).step anyStep s' after' ∧ Paired self key g after after' := by
  have hsound := Executor.sound_step hpaired.sound hstep
  obtain hunseen | ⟨action', after', htransition, hafter⟩ := hpaired.seen.step hkey hpaired.sound hpaired.alone hstep
  · exact ⟨s', .refl _, hsound, hpaired.alone, hunseen⟩
  · exact ⟨after', .single trivial htransition.step_eq, hsound,
      Executor.sound_step hpaired.alone htransition.step_eq, hafter⟩

/-- The executor follows the group's own system by letting nothing else move:
it first runs the loop of `start_executor` to its end. -/
theorem step_back {action' : Action Value} {after' : State Value Valence} (hkey : self.keys[g]? = some key)
    (hpaired : Paired self key g s s')
    (hquiet : (s = self.start ∧ s' = (self.alone key).start) ∨ s.unspawned = [] ∧ ∀ task ∈ s.tasks, task.group = g)
    (hstep : (self.alone key).step s' action' = some after') :
    ∃ after, Steps self.step anyStep s after ∧ Paired self key g after after' ∧ after.unspawned = [] ∧
      ∀ task ∈ after.tasks, task.group = g := by
  have halone := Executor.sound_step hpaired.alone hstep
  obtain ⟨rfl, rfl⟩ | ⟨hreturned, hown⟩ := hquiet
  · have hspawns := self.spawns_all hpaired.sound
    have hsound : Sound self { self.start with unspawned := [], groups := self.keys.map self.group_for } :=
      Executor.Reachable.sound hspawns
    refine ⟨_, hspawns, ⟨hsound, halone, Executor.alone_start hkey hstep⟩, rfl, fun task htask => ?_⟩
    cases htask
  · obtain ⟨action, after, htaken, hafter, hreturned', hown'⟩ :=
      hpaired.seen.step_back hkey hpaired.sound hpaired.alone hreturned hown hstep
    exact ⟨after, .single trivial htaken, ⟨Executor.sound_step hpaired.sound htaken, halone, hafter⟩, hreturned', hown'⟩

end Paired

/-- The groups do not interfere. What happens in a run to one group (its lookups
and stream, its dispatches and all their effects) can happen in the executor
that was linked with its handlers alone; and whatever can happen there can
happen to the group among the others. -/
theorem group_runs_alone {Value Actor Valence : Type} {self : Executor Value Actor Valence} {key : TopicKey} {g : Nat}
    (hkey : self.keys[g]? = some key) :
    (∀ s, self.Reachable anyStep s → ∃ s', (self.alone key).Reachable anyStep s' ∧ SeenFrom g s s') ∧
      ∀ s', (self.alone key).Reachable anyStep s' → ∃ s, self.Reachable anyStep s ∧ SeenFrom g s s' := by
  constructor
  · intro s hreachable
    obtain ⟨s', hreachable', hpaired⟩ := hreachable.matched (Paired self key g)
      (fun _ _ _ _ hbefore _ hstep => hbefore.step hkey hstep) .start
    exact ⟨s', hreachable', hpaired.seen⟩
  · intro s' hreachable'
    let Rel : State Value Valence → State Value Valence → Prop := fun s' s => Paired self key g s s' ∧
      ((s = self.start ∧ s' = (self.alone key).start) ∨ s.unspawned = [] ∧ ∀ task ∈ s.tasks, task.group = g)
    have hstart : Rel (self.alone key).start self.start := ⟨.start, .inl ⟨rfl, rfl⟩⟩
    obtain ⟨s, hreachable, hpaired, _⟩ := hreachable'.matched Rel (fun _ _ _ _ hbefore _ hstep =>
      let ⟨after, hrun, hafter, hquiet⟩ := hbefore.1.step_back hkey hbefore.2 hstep
      ⟨after, hrun, hafter, .inr hquiet⟩) hstart
    exact ⟨s, hreachable, hpaired.seen⟩

/-- The dispatches of both groups are carried out, that of the second group in
between. -/
def routing_through : List (Action ActorJson) :=
  routing_both ++ [.dispatch 1 .acquire, .dispatch 1 .gate, .dispatch 1 .build, .dispatch 1 .invoke,
    .dispatch 1 (.returned (.Err "no stock")), .dispatch 1 (.dlq_record true), .dispatch 0 .acquire, .dispatch 0 .gate,
    .dispatch 0 .build, .dispatch 0 .invoke, .dispatch 0 (.returned .Ok), .dispatch 0 .coalescer_record,
    .dispatch 0 (.recorded true)]

theorem group_runs_alone_overlapping : ∃ s s' again : State ActorJson Actor,
    execute overlapping_executor.step overlapping_executor.start routing_through = some s ∧
    (overlapping_executor.alone ("orders", none)).Reachable anyStep s' ∧ SeenFrom 1 s s' ∧
    overlapping_executor.Reachable anyStep again ∧ SeenFrom 1 again s' ∧
    s.labelled.map (fun entry => entry.1.group) = [0, 0, 0, 0, 1, 1, 1, 1, 1] ∧
    s'.labelled.map (fun entry => entry.1.group) = [0, 0, 0, 0, 0] := by
  obtain ⟨s, hexecute, hlabels, hseen_labels⟩ : ∃ s : State ActorJson Actor,
      execute overlapping_executor.step overlapping_executor.start routing_through = some s ∧
      s.labelled.map (fun entry => entry.1.group) = [0, 0, 0, 0, 1, 1, 1, 1, 1] ∧
      ((s.labelled.filter fun entry => entry.1.group = 1).map fun entry => (entry.1.alone, entry.2)).map
        (fun entry => entry.1.group) = [0, 0, 0, 0, 0] := ⟨_, rfl, rfl, rfl⟩
  have hkey : overlapping_executor.keys[1]? = some ("orders", none) := rfl
  obtain ⟨hforth, hback⟩ := group_runs_alone hkey
  obtain ⟨s', hreachable', hseen⟩ := hforth s (execute_anyStep routing_through hexecute)
  obtain ⟨again, hreachable, hagain⟩ := hback s' hreachable'
  exact ⟨s, s', again, hexecute, hreachable', hseen, hreachable, hagain, hlabels, hseen.labelled_eq ▸ hseen_labels⟩

end photon_valence_identity.executor
