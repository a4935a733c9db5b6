import Mathlib.Algebra.GroupWithZero.Nat
import PhotonValence.Handler.Registry
import PhotonValence.Slots.Partition

namespace photon_valence_identity

namespace HandlerRegistry

theorem topic_names_eq_dedup (self : HandlerRegistry) :
    self.topic_names = ((self.iter.map fun d => d.topic_name).mergeSort (· ≤ ·)).dedup :=
  (List.pairwise_mergeSort' (· ≤ ·) _).destutter_eq_dedup

theorem topic_names_increasing (self : HandlerRegistry) : self.topic_names.Pairwise (· < ·) := by
  rw [topic_names_eq_dedup]
  have hsorted := List.pairwise_mergeSort' (· ≤ ·) (self.iter.map fun d => d.topic_name)
  have hle := hsorted.sublist (List.dedup_sublist _)
  exact (hle.and (List.nodup_dedup _)).imp fun ⟨hle, hne⟩ => lt_of_le_of_ne hle hne

theorem mem_topic_names_iff (self : HandlerRegistry) (topic_name : String) :
    topic_name ∈ self.topic_names ↔ ∃ d ∈ self.iter, d.topic_name = topic_name := by
  rw [topic_names_eq_dedup, List.mem_dedup, List.mem_mergeSort, List.mem_map]

theorem handlers_for_topic_key_eq_nil_iff (self : HandlerRegistry) (topic_name : String)
    (topic_key_filter : Option String) :
    self.handlers_for_topic_key topic_name topic_key_filter = [] ↔
      (topic_name, topic_key_filter) ∉ self.topic_subscription_keys := by
  rw [handlers_for_topic_key_eq, List.filter_eq_nil_iff, mem_topic_subscription_keys_iff]
  simp

/-- The groups put together are the registered descriptors. -/
theorem groups_perm (self : HandlerRegistry) {keys : List TopicKey}
    (hkeys : keys.Perm self.topic_subscription_keys) :
    (keys.flatMap fun key => self.handlers_for_topic_key key.1 key.2).Perm self.iter := by
  have hcovers : ∀ d ∈ self.iter, d.topicKey ∈ keys := fun d hd =>
    hkeys.mem_iff.mpr ((self.mem_topic_subscription_keys_iff _).mpr ⟨d, hd, rfl⟩)
  have hnodup : keys.Nodup := hkeys.nodup_iff.mpr self.topic_subscription_keys_nodup
  simp only [handlers_for_topic_key_eq]
  exact slots.flatMap_filter_perm_self HandlerDescriptor.topicKey hnodup hcovers

/-- The groups an event is routed to. -/
def event_keys (topic_name : String) (topic_key : Option String) : List TopicKey :=
  (topic_name, none) :: (topic_key.map fun key => (topic_name, some key)).toList

theorem matches_event_iff_mem_event_keys (d : HandlerDescriptor) (topic_name : String)
    (topic_key : Option String) :
    d.matches_event topic_name topic_key = true ↔ d.topicKey ∈ event_keys topic_name topic_key := by
  rw [d.matches_event_iff]
  cases topic_key with
  | none => simp [event_keys, HandlerDescriptor.topicKey]
  | some key => simp [event_keys, HandlerDescriptor.topicKey, and_or_left]

theorem event_keys_nodup (topic_name : String) (topic_key : Option String) :
    (event_keys topic_name topic_key).Nodup := by
  cases topic_key <;> simp [event_keys]

/-- Scanning all descriptors for an event finds what its groups hold. -/
theorem handlers_for_event_perm (self : HandlerRegistry) (topic_name : String) (topic_key : Option String) :
    (self.handlers_for_event topic_name topic_key).Perm
      ((event_keys topic_name topic_key).flatMap fun key => self.handlers_for_topic_key key.1 key.2) := by
  simp only [handlers_for_topic_key_eq]
  exact (slots.flatMap_filter_perm_of_iff HandlerDescriptor.topicKey (event_keys_nodup _ _)
    fun d _ => matches_event_iff_mem_event_keys d topic_name topic_key).symm

end HandlerRegistry

/-- What a registry stands for: the descriptors it was given, in that order.
`keys` is any order in which the hash index yields its keys. -/
structure Represents (registry : HandlerRegistry) (registrations : List HandlerDescriptor) : Prop where
  iter_eq : registry.iter = registrations
  group_eq : ∀ topic_name topic_key_filter, registry.handlers_for_topic_key topic_name topic_key_filter =
    registrations.filter fun d => d.topic_name = topic_name ∧ d.topic_key_filter = topic_key_filter
  group_of_unregistered : ∀ topic_name topic_key_filter,
    (∀ d ∈ registrations, ¬ (d.topic_name = topic_name ∧ d.topic_key_filter = topic_key_filter)) →
      registry.handlers_for_topic_key topic_name topic_key_filter = []
  keys_nodup : ∀ keys : List TopicKey, keys.Perm registry.topic_subscription_keys → keys.Nodup
  mem_keys_iff : ∀ keys : List TopicKey, keys.Perm registry.topic_subscription_keys → ∀ topic_name topic_key_filter,
    (topic_name, topic_key_filter) ∈ keys ↔ registry.handlers_for_topic_key topic_name topic_key_filter ≠ []
  len_eq : ∀ keys : List TopicKey, keys.Perm registry.topic_subscription_keys →
    (keys.map fun key => (registry.handlers_for_topic_key key.1 key.2).length).sum = registry.len
  topic_names_increasing : registry.topic_names.Pairwise (· < ·)
  mem_topic_names_iff : ∀ topic_name, topic_name ∈ registry.topic_names ↔
    ∃ d ∈ registrations, d.topic_name = topic_name
  event_sublist : ∀ topic_name topic_key,
    (registry.handlers_for_event topic_name topic_key).Sublist registry.iter
  event_perm : ∀ topic_name topic_key, (registry.handlers_for_event topic_name topic_key).Perm
    (registry.handlers_for_topic_key topic_name none ++
      topic_key.elim [] fun key => registry.handlers_for_topic_key topic_name (some key))

theorem HandlerRegistry.represents_iter (self : HandlerRegistry) : Represents self self.iter := by
  have hgroup : ∀ topic_name topic_key_filter, self.handlers_for_topic_key topic_name topic_key_filter =
      self.iter.filter fun d => d.topic_name = topic_name ∧ d.topic_key_filter = topic_key_filter := by
    intro topic_name topic_key_filter
    rw [self.handlers_for_topic_key_eq]
    refine List.filter_congr fun d _ => ?_
    simp [HandlerDescriptor.topicKey]
  constructor
  · rfl
  · exact hgroup
  · intro topic_name topic_key_filter hnone
    rw [hgroup, List.filter_eq_nil_iff]
    simpa using hnone
  · intro keys hkeys
    exact hkeys.nodup_iff.mpr self.topic_subscription_keys_nodup
  · intro keys hkeys topic_name topic_key_filter
    rw [hkeys.mem_iff, ne_eq, self.handlers_for_topic_key_eq_nil_iff, not_not]
  · intro keys hkeys
    rw [← List.length_flatMap]
    exact (self.groups_perm hkeys).length_eq
  · exact self.topic_names_increasing
  · exact self.mem_topic_names_iff
  · exact fun topic_name topic_key => List.filter_sublist
  · intro topic_name topic_key
    have hperm := self.handlers_for_event_perm topic_name topic_key
    cases topic_key with
    | none => simpa [HandlerRegistry.event_keys] using hperm
    | some key => simpa [HandlerRegistry.event_keys] using hperm

/-- Whatever has been registered, both views of the registry are that list. -/
theorem registrations_represented (registrations : List HandlerDescriptor) :
    Represents (registrations.foldl HandlerRegistry.register HandlerRegistry.new) registrations := by
  have hiter := HandlerRegistry.iter_auto_discover registrations
  have hrepresents := (HandlerRegistry.auto_discover registrations).represents_iter
  rwa [hiter] at hrepresents

end photon_valence_identity
