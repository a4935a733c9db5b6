import PhotonValence.Executor.Ledger
import PhotonValence.Executor.Spawns

open photon_backend transition slots

namespace photon_valence_identity.executor

/-- The key a subscription task was spawned for. -/
def GroupTask.key {Value : Type} (group : GroupTask Value) : TopicKey :=
  (group.topic_name, group.topic_key_filter)

/-- What holds in every state of every run: the groups come from the registry
in the order of its keys, the dispatch tasks are exactly those the groups have
spawned, each has had the effects of its control point, and the permits not
free are those the tasks hold. -/
structure Sound {Value Actor Valence : Type} (executor : Executor Value Actor Valence)
    (s : State Value Valence) : Prop where
  keys_eq : s.groups.map GroupTask.key ++ s.unspawned = executor.keys
  handlers_eq : ∀ group ∈ s.groups,
    group.handlers = executor.registry.handlers_for_topic_key group.topic_name group.topic_key_filter
  spawned_eq : ∀ g group, s.groups[g]? = some group → s.spawned g = group.spawns g
  owned : ∀ task ∈ s.tasks, task.group < s.groups.length
  ledger : ∀ i task, s.tasks[i]? = some task → Ledger executor.toDispatchEnv task.args task.pc (s.log i)
  logged : ∀ entry ∈ s.trace, entry.1 < s.tasks.length
  permits_eq : s.permits + s.tasks.countP (fun task => task.pc.holds_permit) = executor.worker_pool

theorem log_append_self {Value Valence : Type} (trace : List (Nat × Effect Value Valence)) (i : Nat)
    (effects : List (Effect Value Valence)) :
    ((trace ++ effects.map (i, ·)).filter fun entry => entry.1 = i).map Prod.snd =
      (trace.filter fun entry => entry.1 = i).map Prod.snd ++ effects := by
  have hall : (effects.map fun effect => (i, effect)).filter (fun entry => entry.1 = i) =
      effects.map fun effect => (i, effect) := by
    apply List.filter_eq_self.mpr
    intro entry hentry
    obtain ⟨_, _, rfl⟩ := List.mem_map.mp hentry
    simp
  rw [List.filter_append, List.map_append, hall, List.map_map]
  congr 1
  exact List.map_id _

theorem log_append_ne {Value Valence : Type} (trace : List (Nat × Effect Value Valence)) {i j : Nat}
    (hne : j ≠ i) (effects : List (Effect Value Valence)) :
    ((trace ++ effects.map (i, ·)).filter fun entry => entry.1 = j).map Prod.snd =
      (trace.filter fun entry => entry.1 = j).map Prod.snd := by
  have hnone : (effects.map fun effect => (i, effect)).filter (fun entry => entry.1 = j) = [] := by
    apply List.filter_eq_nil_iff.mpr
    intro entry hentry
    obtain ⟨_, _, rfl⟩ := List.mem_map.mp hentry
    simpa using hne.symm
  rw [List.filter_append, hnone, List.append_nil]

theorem log_fresh {Value Valence : Type} {trace : List (Nat × Effect Value Valence)} {bound i : Nat}
    (hlogged : ∀ entry ∈ trace, entry.1 < bound) (hle : bound ≤ i) :
    (trace.filter fun entry => entry.1 = i).map Prod.snd = [] := by
  rw [List.map_eq_nil_iff, List.filter_eq_nil_iff]
  intro entry hentry
  have hlt := hlogged entry hentry
  simp only [decide_eq_true_eq]
  omega

/-- A turn moves the permits by what the task held before and holds after. -/
theorem permits_after_eq {Value Actor Valence : Type} {env : DispatchEnv Value Actor Valence}
    {args : DispatchArgs Value} {pc pc' : Pc Valence} {turn : Turn} {effects : List (Effect Value Valence)}
    {permits permits' : Nat} (hmoves : Moves env args pc turn pc' effects)
    (hpermits : permits_after permits pc pc' = some permits') :
    permits' + (if pc'.holds_permit then 1 else 0) = permits + (if pc.holds_permit then 1 else 0) := by
  cases hmoves with
  | acquire =>
    simp only [permits_after] at hpermits
    split at hpermits
    · cases hpermits
    · cases hpermits
      simp [Pc.holds_permit]
      omega
  | refuse | pass | no_session | session | invoke | err | ok_durable | coalescer_record =>
    cases hpermits
    rfl
  | panic | ok_plain | dlq_record | drain | no_drain =>
    cases hpermits
    rfl

namespace Executor

theorem sound_start {Value Actor Valence : Type} (self : Executor Value Actor Valence) :
    Sound self self.start where
  keys_eq := rfl
  handlers_eq := by simp [start]
  spawned_eq := by simp [start]
  owned := by simp [start]
  ledger := by simp [start]
  logged := by simp [start]
  permits_eq := rfl

/-- The loop of `start_executor` never meets a key without handlers. -/
theorem no_empty_group {Value Actor Valence : Type} {self : Executor Value Actor Valence}
    {s : State Value Valence} (hsound : Sound self s) {key : TopicKey} {rest : List TopicKey}
    (hkeys : s.unspawned = key :: rest) : self.registry.handlers_for_topic_key key.1 key.2 ≠ [] := by
  apply HandlerRegistry.group_ne_nil
  apply self.keys_perm.mem_iff.mp
  rw [← hsound.keys_eq, hkeys]
  simp

theorem sound_spawn_group {Value Actor Valence : Type} {self : Executor Value Actor Valence}
    {s : State Value Valence} (hsound : Sound self s) {key : TopicKey} {rest : List TopicKey}
    (hkeys : s.unspawned = key :: rest) :
    Sound self { s with
      unspawned := rest
      groups := s.groups ++ [{
        topic_name := key.1
        topic_key_filter := key.2
        handlers := self.registry.handlers_for_topic_key key.1 key.2 }] } where
  keys_eq := by
    rw [← hsound.keys_eq, hkeys]
    simp [GroupTask.key]
  handlers_eq := by
    intro group hgroup
    obtain hold | hnew := List.mem_append.mp hgroup
    · exact hsound.handlers_eq group hold
    · rw [List.mem_singleton.mp hnew]
  spawned_eq := by
    intro g group hgroup
    obtain hold | ⟨hle, hnew⟩ := getElem?_append_cases hgroup
    · exact hsound.spawned_eq g group hold
    · have hnone : s.spawned g = [] := by
        apply List.filter_eq_nil_iff.mpr
        intro spawn hspawn
        obtain ⟨task, htask, rfl⟩ := List.mem_map.mp hspawn
        have howned := hsound.owned task htask
        simp only [decide_eq_true_eq]
        omega
      obtain ⟨hlt, hget⟩ := List.getElem?_eq_some_iff.mp hnew
      simp only [List.getElem_singleton] at hget
      subst hget
      show s.spawned g = _
      simp [hnone, GroupTask.spawns]
  owned := by
    intro task htask
    have howned := hsound.owned task htask
    simp only [List.length_append, List.length_singleton]
    omega
  ledger := hsound.ledger
  logged := hsound.logged
  permits_eq := hsound.permits_eq

theorem sound_group {Value Actor Valence : Type} {self : Executor Value Actor Valence}
    {s : State Value Valence} (hsound : Sound self s) {g : Nat} {turn : GroupTurn Value}
    {group group' : GroupTask Value} {spawned : Option (Nat × DispatchArgs Value)}
    (hgroup : s.groups[g]? = some group) (hmoves : GroupMoves group turn group' spawned) :
    Sound self { s with
      groups := s.groups.set g group'
      tasks := s.tasks ++ (spawned.map fun dispatch =>
        (⟨⟨g, group.rounds.length, dispatch.1, dispatch.2⟩, .acquire⟩ : DispatchTask Value Valence)).toList } where
  keys_eq := by
    obtain ⟨htopic, hfilter, _⟩ := hmoves.same_group
    have hkeys : (s.groups.set g group').map GroupTask.key = s.groups.map GroupTask.key :=
      map_set_eq hgroup (by simp only [GroupTask.key, htopic, hfilter])
    simp only [hkeys]
    exact hsound.keys_eq
  handlers_eq := by
    intro other hother
    obtain hold | rfl := List.mem_or_eq_of_mem_set hother
    · exact hsound.handlers_eq other hold
    · obtain ⟨htopic, hfilter, hhandlers⟩ := hmoves.same_group
      rw [htopic, hfilter, hhandlers]
      exact hsound.handlers_eq group (List.mem_of_getElem? hgroup)
  spawned_eq := by
    intro g' other hother
    obtain ⟨rfl, rfl⟩ | ⟨hne, hold⟩ := getElem?_set_cases hother
    · rw [hmoves.spawns_eq, ← hsound.spawned_eq g' group hgroup]
      simp only [State.spawned, List.map_append, List.filter_append]
      congr 1
      cases spawned <;> simp
    · rw [← hsound.spawned_eq g' other hold]
      simp only [State.spawned, List.map_append, List.filter_append]
      cases spawned <;> simp [Ne.symm hne]
  owned := by
    intro task htask
    rw [List.length_set]
    obtain hold | hnew := List.mem_append.mp htask
    · exact hsound.owned task hold
    · obtain ⟨hlt, _⟩ := List.getElem?_eq_some_iff.mp hgroup
      cases spawned with
      | none => cases hnew
      | some dispatch =>
        rw [List.mem_singleton.mp hnew]
        exact hlt
  ledger := by
    intro i task htask
    obtain hold | ⟨hle, hnew⟩ := getElem?_append_cases htask
    · exact hsound.ledger i task hold
    · have hlog : s.log i = [] := log_fresh hsound.logged hle
      have hacquire : task.pc = .acquire := by
        cases spawned with
        | none => simp at hnew
        | some dispatch =>
          obtain ⟨hlt, hget⟩ := List.getElem?_eq_some_iff.mp hnew
          simp only [Option.map_some, Option.toList_some, List.getElem_singleton] at hget
          rw [← hget]
      show Ledger _ _ _ (s.log i)
      rw [hlog, hacquire]
      exact .acquire
  logged := by
    intro entry hentry
    have hlt := hsound.logged entry hentry
    simp only [List.length_append]
    omega
  permits_eq := by
    rw [List.countP_append, ← hsound.permits_eq]
    cases spawned <;> simp [Pc.holds_permit]

theorem sound_dispatch {Value Actor Valence : Type} {self : Executor Value Actor Valence}
    {s : State Value Valence} (hsound : Sound self s) {i : Nat} {turn : Turn}
    {task : DispatchTask Value Valence} {pc' : Pc Valence} {effects : List (Effect Value Valence)}
    {permits : Nat} (htask : s.tasks[i]? = some task)
    (hmoves : Moves self.toDispatchEnv task.args task.pc turn pc' effects)
    (hpermits : permits_after s.permits task.pc pc' = some permits) :
    Sound self { s with
      permits
      tasks := s.tasks.set i { task with pc := pc' }
      trace := s.trace ++ effects.map (i, ·) } where
  keys_eq := hsound.keys_eq
  handlers_eq := hsound.handlers_eq
  spawned_eq := by
    intro g group hgroup
    have hspawns : (s.tasks.set i { task with pc := pc' }).map DispatchTask.toSpawn =
        s.tasks.map DispatchTask.toSpawn := map_set_eq htask rfl
    rw [← hsound.spawned_eq g group hgroup]
    simp only [State.spawned, hspawns]
  owned := by
    intro other hother
    obtain hold | rfl := List.mem_or_eq_of_mem_set hother
    · exact hsound.owned other hold
    · exact hsound.owned task (List.mem_of_getElem? htask)
  ledger := by
    intro j other hother
    obtain ⟨rfl, rfl⟩ | ⟨hne, hold⟩ := getElem?_set_cases hother
    · simp only [State.log, log_append_self]
      exact (hsound.ledger j task htask).step hmoves
    · simp only [State.log, log_append_ne _ hne]
      exact hsound.ledger j other hold
  logged := by
    intro entry hentry
    rw [List.length_set]
    obtain hold | hnew := List.mem_append.mp hentry
    · exact hsound.logged entry hold
    · obtain ⟨_, _, rfl⟩ := List.mem_map.mp hnew
      exact (List.getElem?_eq_some_iff.mp htask).1
  permits_eq := by
    have hcount : (s.tasks.set i { task with pc := pc' }).countP (fun task => task.pc.holds_permit) +
        (if task.pc.holds_permit then 1 else 0) =
          s.tasks.countP (fun task => task.pc.holds_permit) + (if pc'.holds_permit then 1 else 0) :=
      countP_set_add htask
    have hmoved := permits_after_eq hmoves hpermits
    have hbefore := hsound.permits_eq
    simp only
    omega

/-- Every step keeps the invariant. -/
theorem sound_step {Value Actor Valence : Type} {self : Executor Value Actor Valence}
    {s s' : State Value Valence} {action : Action Value} (hsound : Sound self s)
    (hstep : self.step s action = some s') : Sound self s' := by
  cases transition_of_step hstep with
  | skip_group hkeys hempty => exact absurd hempty (no_empty_group hsound hkeys)
  | spawn_group hkeys _ => exact sound_spawn_group hsound hkeys
  | group hgroup hmoves => exact sound_group hsound hgroup hmoves
  | dispatch htask hmoves hpermits => exact sound_dispatch hsound htask hmoves hpermits
  | abort => exact ⟨hsound.1, hsound.2, hsound.3, hsound.4, hsound.5, hsound.6, hsound.7⟩
  | @cancel g group _ hgroup hawaits =>
    refine ⟨?_, ?_, ?_, ?_, hsound.ledger, hsound.logged, hsound.permits_eq⟩
    · have hkeys : (s.groups.set g { group with pc := .cancelled }).map GroupTask.key =
          s.groups.map GroupTask.key := map_set_eq hgroup rfl
      simp only [hkeys]
      exact hsound.keys_eq
    · intro other hother
      obtain hold | rfl := List.mem_or_eq_of_mem_set hother
      · exact hsound.handlers_eq other hold
      · exact hsound.handlers_eq group (List.mem_of_getElem? hgroup)
    · intro g' other hother
      obtain ⟨rfl, rfl⟩ | ⟨hne, hold⟩ := getElem?_set_cases hother
      · show s.spawned g' = _
        rw [hsound.spawned_eq g' group hgroup]
        obtain hpc | hpc := hawaits <;> simp [GroupTask.spawns, hpc]
      · exact hsound.spawned_eq g' other hold
    · intro task htask
      rw [List.length_set]
      exact hsound.owned task htask

/-- The invariant holds in every state an executor reaches. -/
theorem Reachable.sound {Value Actor Valence : Type} {self : Executor Value Actor Valence}
    {ok : State Value Valence → Action Value → Prop} {s : State Value Valence}
    (hreachable : self.Reachable ok s) : Sound self s :=
  Steps.invariant hreachable (fun _ _ _ hsound _ hstep => sound_step hsound hstep) (sound_start self)

end Executor

/-- A group has the key of its place. -/
theorem Sound.key_at {Value Actor Valence : Type} {self : Executor Value Actor Valence} {s : State Value Valence}
    (hsound : Sound self s) {g : Nat} {group : GroupTask Value} (hgroup : s.groups[g]? = some group) :
    self.keys[g]? = some group.key := by
  rw [← hsound.keys_eq]
  apply getElem?_append_of_some
  rw [List.getElem?_map, hgroup]
  rfl

end photon_valence_identity.executor
