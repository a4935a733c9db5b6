import PhotonValence.Executor.Inventory
import PhotonValence.Executor.Pairs
import PhotonValence.Slots.Partition

open photon_backend valence transition slots

namespace photon_valence_identity.executor

/-- A spawned dispatch with the descriptor it was spawned for. -/
def routed_spawn {Value : Type} (handlers : List HandlerDescriptor) (spawn : Spawn Value) :
    Option HandlerDescriptor × DispatchArgs Value :=
  (handlers[spawn.entry]?, spawn.args)

/-- What the dispatch of an event to a handler has to be given: the handler's own
name, durability and function, and the event with its topic. -/
def routed_args {Value : Type} (h : HandlerDescriptor) (ev : Event Value) : DispatchArgs Value where
  subscription_name := h.subscription_name
  is_durable := h.mode = .Durable
  topic_name := ev.topic_name
  dispatch := h.dispatch
  ev := ev

/-- The handlers that take an event, in registration order, each with what its
dispatch has to be given. -/
def routes {Value : Type} (handlers : List HandlerDescriptor) (ev : Event Value) :
    List (Option HandlerDescriptor × DispatchArgs Value) :=
  (handlers.filter fun h => h.matches_event ev.topic_name ev.topic_key).map fun h => (some h, routed_args h ev)

/-- The dispatches of the event that group `g` has spawned, each with its
handler. -/
def State.dispatched_to {Value Valence : Type} [DecidableEq Value] (s : State Value Valence) (g : Nat)
    (group : GroupTask Value) (ev : Event Value) : List (Option HandlerDescriptor × DispatchArgs Value) :=
  ((s.spawned g).map (routed_spawn group.handlers)).filter fun route => route.2.ev = ev

/-- The dispatches of the event that all groups have spawned, each with its
handler. -/
def State.routed {Value Valence : Type} [DecidableEq Value] (s : State Value Valence) (ev : Event Value) :
    List (Option HandlerDescriptor × DispatchArgs Value) :=
  s.groups.zipIdx.flatMap fun entry => s.dispatched_to entry.2 entry.1 ev

/-- The subscription task gives every dispatch what it has to be given. -/
theorem dispatch_args_eq {Value : Type} (h : HandlerDescriptor) (ev : Event Value) :
    dispatch_args h ev = routed_args h ev := rfl

theorem map_routed_spawn_round {Value : Type} (g occurrence : Nat) (handlers : List HandlerDescriptor)
    (ev : Event Value) (next : Nat) :
    (spawn_round g occurrence handlers ev next).map (routed_spawn handlers) = routes (handlers.take next) ev := by
  induction next with
  | zero => rfl
  | succ next ih =>
    rw [spawn_round, List.map_append, ih, List.take_add_one, routes, routes, List.filter_append,
      List.map_append]
    congr 1
    cases hnext : handlers[next]? with
    | none => rfl
    | some descriptor =>
      cases hmatches : descriptor.matches_event ev.topic_name ev.topic_key <;>
        simp [hmatches, routed_spawn, hnext, dispatch_args_eq]

/-- What a group has spawned between two events: for each pulled event, in
stream order, a dispatch to each handler that takes it, in registration
order. -/
theorem GroupTask.map_routed_spawns {Value : Type} {group : GroupTask Value} (hidle : group.current = [])
    (g : Nat) :
    (group.spawns g).map (routed_spawn group.handlers) = group.pulled.flatMap (routes group.handlers) := by
  have hnone : ∀ ev next, group.pc ≠ .dispatching ev next := by
    intro ev next hpc
    simp [GroupTask.current, hpc] at hidle
  have hspawns : group.spawns g = group.rounds.zipIdx.flatMap fun pulled =>
      spawn_round g pulled.2 group.handlers pulled.1 group.handlers.length := by
    rw [GroupTask.spawns]
    cases hpc : group.pc with
    | dispatching ev next => exact absurd hpc (hnone ev next)
    | _ => exact List.append_nil _
  have hround : ∀ pulled : Event Value × Nat,
      (spawn_round g pulled.2 group.handlers pulled.1 group.handlers.length).map (routed_spawn group.handlers) =
        routes group.handlers pulled.1 := by
    intro pulled
    rw [map_routed_spawn_round, List.take_length]
  rw [hspawns, List.map_flatMap, GroupTask.pulled, hidle, List.append_nil]
  simp only [hround]
  exact flatMap_zipIdx_fst group.rounds _

/-- The routes of one pulled event, seen from another: all of them if it is the
same event, and otherwise none. -/
theorem filter_routes {Value : Type} [DecidableEq Value] (handlers : List HandlerDescriptor)
    (pulled ev : Event Value) :
    ((routes handlers pulled).filter fun route => route.2.ev = ev) =
      if pulled = ev then routes handlers ev else [] := by
  by_cases hsame : pulled = ev
  · subst hsame
    rw [if_pos rfl, List.filter_eq_self]
    intro route hroute
    obtain ⟨h, _, rfl⟩ := List.mem_map.mp hroute
    simp [routed_args]
  · rw [if_neg hsame, List.filter_eq_nil_iff]
    intro route hroute
    obtain ⟨h, _, rfl⟩ := List.mem_map.mp hroute
    simp [routed_args, hsame]

theorem flatMap_routes {Value : Type} [DecidableEq Value] (handlers : List HandlerDescriptor)
    (pulled : List (Event Value)) (ev : Event Value) :
    ((pulled.flatMap (routes handlers)).filter fun route => route.2.ev = ev) =
      (List.replicate (pulled.count ev) (routes handlers ev)).flatten := by
  induction pulled with
  | nil => rfl
  | cons head rest ih =>
    rw [List.flatMap_cons, List.filter_append, filter_routes, ih]
    by_cases hsame : head = ev
    · subst hsame
      rw [if_pos rfl, List.count_cons_self, List.replicate_succ, List.flatten_cons]
    · rw [if_neg hsame, List.count_cons_of_ne hsame, List.nil_append]

/-- An event pulled exactly once by a group is dispatched once to each handler
of the group that takes it; a foreign event is dispatched to none, however
often it was pulled. -/
theorem Sound.dispatched_to_eq {Value Actor Valence : Type} [DecidableEq Value]
    {self : Executor Value Actor Valence} {s : State Value Valence} (hsound : Sound self s) {g : Nat}
    {group : GroupTask Value} (hgroup : s.groups[g]? = some group) (hidle : group.current = [])
    {ev : Event Value}
    (honce : ev.topic_name = group.topic_name →
      (group.topic_key_filter = none ∨ group.topic_key_filter = ev.topic_key) → group.pulled.count ev = 1) :
    s.dispatched_to g group ev = routes group.handlers ev := by
  rw [State.dispatched_to, hsound.spawned_eq g group hgroup, GroupTask.map_routed_spawns hidle, flatMap_routes,
    routes]
  cases htakers : group.handlers.filter fun h => h.matches_event ev.topic_name ev.topic_key with
  | nil => simp
  | cons taker rest =>
    have htaker : taker ∈ group.handlers.filter fun h => h.matches_event ev.topic_name ev.topic_key := by
      simp [htakers]
    obtain ⟨hmember, hmatches⟩ := List.mem_filter.mp htaker
    obtain ⟨htopic, hfilter⟩ := hsound.topicKey_eq (List.mem_of_getElem? hgroup) hmember
    obtain ⟨hsame, hkey⟩ := (HandlerDescriptor.matches_event_iff _ _ _).mp hmatches
    rw [honce (by rw [← htopic, hsame]) (by rwa [hfilter] at hkey)]
    simp

/-- The groups partition the handlers that take an event. -/
theorem Sound.groups_perm {Value Actor Valence : Type} {self : Executor Value Actor Valence}
    {s : State Value Valence} (hsound : Sound self s) (hreturned : s.unspawned = []) (ev : Event Value) :
    (s.groups.flatMap fun group =>
      group.handlers.filter fun h => h.matches_event ev.topic_name ev.topic_key).Perm
        (self.registry.handlers_for_event ev.topic_name ev.topic_key) := by
  have hkeys := hsound.keys_eq
  rw [hreturned, List.append_nil] at hkeys
  have hgroups : (s.groups.flatMap fun group =>
      group.handlers.filter fun h => h.matches_event ev.topic_name ev.topic_key) =
      self.keys.flatMap fun key =>
        (self.registry.handlers_for_event ev.topic_name ev.topic_key).filter fun h => h.topicKey = key := by
    rw [← hkeys, List.flatMap_map]
    apply List.flatMap_congr
    intro group hgroup
    rw [hsound.handlers_eq group hgroup, HandlerRegistry.handlers_for_topic_key_eq,
      HandlerRegistry.handlers_for_event, HandlerRegistry.iter, List.filter_filter, List.filter_filter]
    apply List.filter_congr
    intro h _
    exact Bool.and_comm _ _
  rw [hgroups]
  apply flatMap_filter_perm_self
  · exact self.keys_perm.nodup_iff.mpr (HandlerRegistry.topic_subscription_keys_nodup _)
  · intro h hh
    rw [self.keys_perm.mem_iff, HandlerRegistry.mem_topic_subscription_keys_iff]
    exact ⟨h, (List.mem_filter.mp hh).1, rfl⟩

/-- Once every group has been spawned and none is between two items of its
stream, an event that each group it belongs to has pulled exactly once has been
dispatched to exactly the handlers the reference lookup gives, each as often as
it is registered, and each dispatch was given its own handler's name,
durability and function and the event. Each group spawns in stream order and,
per event, in registration order. Stream errors and foreign events do not
matter. -/
theorem routing_refines_lookup {Value Actor Valence : Type} [DecidableEq Value]
    {self : Executor Value Actor Valence} {ok : State Value Valence → Action Value → Prop}
    {s : State Value Valence} (hreachable : self.Reachable ok s) (hreturned : s.unspawned = [])
    (hidle : ∀ group ∈ s.groups, group.current = []) {ev : Event Value}
    (honce : ∀ group ∈ s.groups, ev.topic_name = group.topic_name →
      (group.topic_key_filter = none ∨ group.topic_key_filter = ev.topic_key) → group.pulled.count ev = 1) :
    (s.routed ev).Perm ((self.registry.handlers_for_event ev.topic_name ev.topic_key).map fun h =>
      (some h, routed_args h ev)) ∧
    ∀ (g : Nat) (group : GroupTask Value), s.groups[g]? = some group →
      (s.spawned g).map (routed_spawn group.handlers) = group.pulled.flatMap (routes group.handlers) ∧
      group.handlers = self.registry.iter.filter fun h => h.topicKey = group.key := by
  have hsound := hreachable.sound
  constructor
  · have hrouted : s.routed ev = (s.groups.flatMap fun group =>
        group.handlers.filter fun h => h.matches_event ev.topic_name ev.topic_key).map fun h =>
          (some h, routed_args h ev) := by
      have hentries : s.routed ev = s.groups.zipIdx.flatMap fun entry => routes entry.1.handlers ev := by
        apply List.flatMap_congr
        intro entry hentry
        have hgroup := List.mem_zipIdx_iff_getElem?.mp hentry
        have hmember := List.mem_of_getElem? hgroup
        exact hsound.dispatched_to_eq hgroup (hidle _ hmember) (honce _ hmember)
      rw [hentries, List.map_flatMap]
      exact flatMap_zipIdx_fst s.groups fun group => routes group.handlers ev
    rw [hrouted]
    exact (hsound.groups_perm hreturned ev).map _
  · intro g group hgroup
    have hmember := List.mem_of_getElem? hgroup
    rw [hsound.spawned_eq g group hgroup]
    refine ⟨GroupTask.map_routed_spawns (hidle group hmember) g, ?_⟩
    rw [hsound.handlers_eq group hmember, HandlerRegistry.handlers_for_topic_key_eq]
    rfl

/-- An unfiltered and a filtered group that both take the orders of key `eu`. -/
def overlapping_executor : Executor ActorJson Actor Actor :=
  Executor.of_inventory open_env [orders_handler (some "billing") none .Durable 0,
    orders_handler none (some "eu") .Ephemeral 1] 1

/-- Both groups pull the event with key `eu`; the filtered one meets a stream
error and an event of another key first. -/
def routing_both : List (Action ActorJson) :=
  [.spawn_group, .spawn_group, .group 0 (.lookup (.ok none)), .group 0 .subscribe,
    .group 1 (.lookup (.ok none)), .group 1 .subscribe, .group 0 (.next (some (.error "lagged"))),
    .group 0 (.next (some (.ok (orders_event (some "us") 4)))), .group 0 .spawn, .group 0 .spawn,
    .group 1 (.next (some (.ok (orders_event (some "eu") 5)))), .group 1 .spawn, .group 1 .spawn,
    .group 0 (.next (some (.ok (orders_event (some "eu") 5)))), .group 0 .spawn, .group 0 .spawn]

def routed_both : State ActorJson Actor :=
  (execute overlapping_executor.step overlapping_executor.start routing_both).get rfl

/-- The event of both groups reaches both handlers, once each. -/
theorem overlapping_groups_route :
    (routed_both.routed (orders_event (some "eu") 5)).Perm
      ((overlapping_executor.registry.handlers_for_event "orders" (some "eu")).map fun h =>
        (some h, routed_args h (orders_event (some "eu") 5))) := by
  have hreachable : overlapping_executor.Reachable anyStep routed_both :=
    execute_anyStep routing_both (Option.some_get _).symm
  have hgroups : routed_both.groups.map (fun group => (group.pulled, group.current)) =
      [([orders_event (some "us") 4, orders_event (some "eu") 5], []), ([orders_event (some "eu") 5], [])] := rfl
  have hpulled : ∀ group ∈ routed_both.groups,
      group.pulled.count (orders_event (some "eu") 5) = 1 ∧ group.current = [] := by
    intro group hgroup
    have hmem := List.mem_map_of_mem (f := fun group => (group.pulled, group.current)) hgroup
    rw [hgroups, List.mem_pair] at hmem
    obtain hfirst | hsecond := hmem
    · rw [(Prod.mk.inj hfirst).1, (Prod.mk.inj hfirst).2]
      decide
    · rw [(Prod.mk.inj hsecond).1, (Prod.mk.inj hsecond).2]
      decide
  exact (routing_refines_lookup hreachable rfl (fun group hgroup => (hpulled group hgroup).2)
    fun group hgroup _ _ => (hpulled group hgroup).1).1

end photon_valence_identity.executor
