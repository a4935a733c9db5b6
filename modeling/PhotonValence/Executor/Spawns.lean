import Mathlib.Data.List.Basic
import Mathlib.Data.List.Pairwise
import PhotonValence.Executor.State

open photon_backend transition slots

namespace photon_valence_identity.executor

/-- What the loop over the descriptors spawns for an event before it looks at
descriptor `next`. -/
def spawn_round {Value : Type} (g occurrence : Nat) (handlers : List HandlerDescriptor)
    (ev : Event Value) : Nat → List (Spawn Value)
  | 0 => []
  | next + 1 =>
    spawn_round g occurrence handlers ev next ++
      match handlers[next]? with
      | none => []
      | some descriptor =>
        if descriptor.matches_event ev.topic_name ev.topic_key then
          [⟨g, occurrence, next, dispatch_args descriptor ev⟩]
        else []

/-- Everything the subscription task of group `g` has spawned so far. -/
def GroupTask.spawns {Value : Type} (group : GroupTask Value) (g : Nat) : List (Spawn Value) :=
  (group.rounds.zipIdx.flatMap fun pulled =>
    spawn_round g pulled.2 group.handlers pulled.1 group.handlers.length) ++
  match group.pc with
  | .dispatching ev next => spawn_round g group.rounds.length group.handlers ev next
  | _ => []

/-- The dispatches spawned for a group, in spawning order. -/
def State.spawned {Value Valence : Type} (s : State Value Valence) (g : Nat) : List (Spawn Value) :=
  (s.tasks.map DispatchTask.toSpawn).filter fun spawn => spawn.group = g

theorem mem_spawn_round_iff {Value : Type} {g occurrence : Nat} {handlers : List HandlerDescriptor}
    {ev : Event Value} {next : Nat} {spawn : Spawn Value} :
    spawn ∈ spawn_round g occurrence handlers ev next ↔
      ∃ descriptor, spawn.entry < next ∧ handlers[spawn.entry]? = some descriptor ∧
        descriptor.matches_event ev.topic_name ev.topic_key = true ∧
        spawn = ⟨g, occurrence, spawn.entry, dispatch_args descriptor ev⟩ := by
  induction next with
  | zero => simp [spawn_round]
  | succ next ih =>
    rw [spawn_round, List.mem_append, ih]
    constructor
    · rintro (⟨descriptor, hlt, hentry⟩ | hmem)
      · exact ⟨descriptor, by omega, hentry⟩
      · split at hmem
        · cases hmem
        · rename_i descriptor hnext
          split at hmem
          · rename_i hmatches
            cases List.mem_singleton.mp hmem
            exact ⟨descriptor, Nat.lt_succ_self _, hnext, hmatches, rfl⟩
          · cases hmem
    · rintro ⟨descriptor, hlt, hentry, hmatches, hspawn⟩
      by_cases hlast : spawn.entry = next
      · right
        rw [← hlast, hentry]
        simp only [hmatches, if_true, List.mem_singleton]
        exact hspawn
      · exact .inl ⟨descriptor, by omega, hentry, hmatches, hspawn⟩

/-- The rounds that are over have their dispatch for every descriptor that takes
the event. -/
theorem GroupTask.mem_rounds_iff {Value : Type} {group : GroupTask Value} {g : Nat} {spawn : Spawn Value} :
    (∃ pulled ∈ group.rounds.zipIdx,
      spawn ∈ spawn_round g pulled.2 group.handlers pulled.1 group.handlers.length) ↔
      ∃ ev descriptor, group.rounds[spawn.occurrence]? = some ev ∧
        group.handlers[spawn.entry]? = some descriptor ∧
        descriptor.matches_event ev.topic_name ev.topic_key = true ∧
        spawn = ⟨g, spawn.occurrence, spawn.entry, dispatch_args descriptor ev⟩ := by
  simp only [mem_spawn_round_iff, Prod.exists, List.mem_zipIdx_iff_getElem?]
  constructor
  · rintro ⟨ev, occurrence, hpulled, descriptor, hlt, hentry, hmatches, hspawn⟩
    have hoccurrence : spawn.occurrence = occurrence := by rw [hspawn]
    subst hoccurrence
    exact ⟨ev, descriptor, hpulled, hentry, hmatches, hspawn⟩
  · rintro ⟨ev, descriptor, hpulled, hentry, hmatches, hspawn⟩
    exact ⟨ev, _, hpulled, descriptor, (List.getElem?_eq_some_iff.mp hentry).1, hentry, hmatches, hspawn⟩

/-- Every pulled event gets a dispatch for every descriptor of the group that
takes it, unless the loop has not come to that descriptor yet. -/
theorem GroupTask.mem_spawns_iff {Value : Type} {group : GroupTask Value} {g : Nat} {spawn : Spawn Value} :
    spawn ∈ group.spawns g ↔
      ∃ ev descriptor, group.pulled[spawn.occurrence]? = some ev ∧
        group.handlers[spawn.entry]? = some descriptor ∧
        descriptor.matches_event ev.topic_name ev.topic_key = true ∧
        spawn = ⟨g, spawn.occurrence, spawn.entry, dispatch_args descriptor ev⟩ ∧
        (∀ current next, group.pc = .dispatching current next →
          spawn.occurrence = group.rounds.length → spawn.entry < next) := by
  rw [GroupTask.spawns, List.mem_append, List.mem_flatMap, GroupTask.mem_rounds_iff]
  cases hpc : group.pc with
  | dispatching current next =>
    have hpulled : group.pulled = group.rounds ++ [current] := by
      simp [GroupTask.pulled, GroupTask.current, hpc]
    simp only [hpulled, mem_spawn_round_iff, GroupPc.dispatching.injEq]
    constructor
    · rintro (⟨ev, descriptor, hold, hentry, hmatches, hspawn⟩ | ⟨descriptor, hlt, hentry, hmatches, hspawn⟩)
      · have hbound := (List.getElem?_eq_some_iff.mp hold).1
        exact ⟨ev, descriptor, getElem?_append_of_some hold, hentry, hmatches, hspawn,
          fun _ _ _ hlast => by omega⟩
      · have hoccurrence : spawn.occurrence = group.rounds.length := by rw [hspawn]
        refine ⟨current, descriptor, by simp [hoccurrence], hentry, hmatches, ?_, ?_⟩
        · rw [hoccurrence]
          exact hspawn
        · rintro _ _ ⟨rfl, rfl⟩ _
          exact hlt
    · rintro ⟨ev, descriptor, hpulled, hentry, hmatches, hspawn, hcame⟩
      obtain hold | ⟨hlen, hlast⟩ := getElem?_append_cases hpulled
      · exact .inl ⟨ev, descriptor, hold, hentry, hmatches, hspawn⟩
      · have hoccurrence : spawn.occurrence = group.rounds.length := by
          have hbound := (List.getElem?_eq_some_iff.mp hlast).1
          simp only [List.length_singleton] at hbound
          omega
        rw [hoccurrence] at hlast hspawn
        simp only [Nat.sub_self, List.getElem?_cons_zero, Option.some.injEq] at hlast
        subst hlast
        exact .inr ⟨descriptor, hcame _ _ ⟨rfl, rfl⟩ hoccurrence, hentry, hmatches, hspawn⟩
  | _ =>
    have hpulled : group.pulled = group.rounds := by simp [GroupTask.pulled, GroupTask.current, hpc]
    simp [hpulled]

/-- The order in which dispatches of one group are spawned: by event, then by
descriptor. -/
def Spawn.before {Value : Type} (first second : Spawn Value) : Prop :=
  first.occurrence < second.occurrence ∨
    (first.occurrence = second.occurrence ∧ first.entry < second.entry)

theorem spawn_round_pairwise {Value : Type} (g occurrence : Nat) (handlers : List HandlerDescriptor)
    (ev : Event Value) (next : Nat) :
    (spawn_round g occurrence handlers ev next).Pairwise Spawn.before := by
  induction next with
  | zero => exact .nil
  | succ next ih =>
    rw [spawn_round, List.pairwise_append]
    refine ⟨ih, ?_, ?_⟩
    · split
      · exact .nil
      · split
        · exact List.pairwise_singleton _ _
        · exact .nil
    · intro first hfirst second hsecond
      obtain ⟨_, hlt, _, _, hspawn⟩ := mem_spawn_round_iff.mp hfirst
      split at hsecond
      · cases hsecond
      · split at hsecond
        · cases List.mem_singleton.mp hsecond
          exact .inr ⟨by rw [hspawn], hlt⟩
        · cases hsecond

/-- Within a group, dispatches are spawned in stream order and, for one event,
in registration order. -/
theorem GroupTask.spawns_pairwise {Value : Type} (group : GroupTask Value) (g : Nat) :
    (group.spawns g).Pairwise Spawn.before := by
  have hoccurrence : ∀ {occurrence ev next spawn}, spawn ∈ spawn_round g occurrence group.handlers ev next →
      (spawn : Spawn Value).occurrence = occurrence := by
    intro occurrence ev next spawn hmem
    obtain ⟨_, _, _, _, hspawn⟩ := mem_spawn_round_iff.mp hmem
    rw [hspawn]
  rw [GroupTask.spawns, List.pairwise_append]
  refine ⟨?_, ?_, ?_⟩
  · rw [List.pairwise_flatMap]
    refine ⟨fun pulled _ => spawn_round_pairwise _ _ _ _ _, ?_⟩
    rw [List.pairwise_iff_getElem]
    intro i j hi hj hij first hfirst second hsecond
    left
    rw [hoccurrence hfirst, hoccurrence hsecond]
    simpa using hij
  · split
    · exact spawn_round_pairwise _ _ _ _ _
    · exact .nil
  · intro first hfirst second hsecond
    obtain ⟨pulled, hpulled, hfirst⟩ := List.mem_flatMap.mp hfirst
    have hbound := (List.getElem?_eq_some_iff.mp (List.mem_zipIdx_iff_getElem?.mp hpulled)).1
    split at hsecond
    · left
      rw [hoccurrence hfirst, hoccurrence hsecond]
      exact hbound
    · cases hsecond

/-- A turn adds to what a group has spawned exactly the dispatch it spawns. -/
theorem GroupMoves.spawns_eq {Value : Type} {group group' : GroupTask Value} {turn : GroupTurn Value}
    {spawned : Option (Nat × DispatchArgs Value)} (hmoves : GroupMoves group turn group' spawned) (g : Nat) :
    group'.spawns g = group.spawns g ++
      (spawned.map fun dispatch => ⟨g, group.rounds.length, dispatch.1, dispatch.2⟩).toList := by
  cases hmoves with
  | lookup => simp [GroupTask.spawns]
  | stream_error => simp [GroupTask.spawns]
  | subscribe hpc | finish hpc => simp [GroupTask.spawns, hpc]
  | pull ev hpc => simp [GroupTask.spawns, hpc, spawn_round]
  | @round_over ev next hpc hdone =>
    have hstable : ∀ bound, group.handlers.length ≤ bound →
        spawn_round g group.rounds.length group.handlers ev bound =
          spawn_round g group.rounds.length group.handlers ev group.handlers.length := by
      intro bound hbound
      induction bound, hbound using Nat.le_induction with
      | base => rfl
      | succ bound hbound ih => rw [spawn_round, ih, List.getElem?_eq_none hbound, List.append_nil]
    simp [GroupTask.spawns, hpc, List.zipIdx_append, hstable next (List.getElem?_eq_none_iff.mp hdone)]
  | pass_over hpc hnext hforeign => simp [GroupTask.spawns, hpc, spawn_round, hnext, hforeign]
  | spawn hpc hnext hmatches => simp [GroupTask.spawns, hpc, spawn_round, hnext, hmatches]

end photon_valence_identity.executor
