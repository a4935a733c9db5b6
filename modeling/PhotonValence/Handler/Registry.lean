import Mathlib.Data.List.AList
import Mathlib.Data.List.Destutter
import Mathlib.Data.List.Sort
import Mathlib.Data.String.Basic
import PhotonValence.Handler.Descriptor

open photon_backend

namespace photon_valence_identity

/-- Lookup table of the executor: the hash index of the groups and the list of
all descriptors. The proof fields state that the two views agree, so a
registry whose index has drifted from its list cannot be built. -/
structure HandlerRegistry where
  by_topic_and_key : AList fun _ : TopicKey => List HandlerDescriptor
  all : List HandlerDescriptor
  group_eq : ∀ key, (by_topic_and_key.lookup key).getD [] = all.filter (fun d => d.topicKey = key)
  mem_keys_iff : ∀ key, key ∈ by_topic_and_key.keys ↔ ∃ d ∈ all, d.topicKey = key

namespace HandlerRegistry

def new : HandlerRegistry where
  by_topic_and_key := ∅
  all := []
  group_eq _ := by simp
  mem_keys_iff _ := by simp

/-- `by_topic_and_key.entry(key).or_default().push(descriptor)`, then
`all.push(descriptor)`. -/
def register (self : HandlerRegistry) (descriptor : HandlerDescriptor) : HandlerRegistry where
  by_topic_and_key := self.by_topic_and_key.insert descriptor.topicKey
    ((self.by_topic_and_key.lookup descriptor.topicKey).getD [] ++ [descriptor])
  all := self.all ++ [descriptor]
  group_eq key := by
    by_cases hkey : key = descriptor.topicKey
    · subst hkey
      simp [AList.lookup_insert, self.group_eq]
    · rw [AList.lookup_insert_ne hkey, self.group_eq]
      simp [Ne.symm hkey]
  mem_keys_iff key := by
    rw [← AList.mem_keys, AList.mem_insert, AList.mem_keys, self.mem_keys_iff]
    constructor
    · rintro (rfl | ⟨d, hd, hkey⟩)
      · exact ⟨descriptor, by simp, rfl⟩
      · exact ⟨d, by simp [hd], hkey⟩
    · rintro ⟨d, hd, rfl⟩
      obtain hold | hnew := List.mem_append.mp hd
      · exact .inr ⟨d, hold, rfl⟩
      · exact .inl (by rw [List.mem_singleton.mp hnew])

/-- The registry of every descriptor the inventory yields, in its order. -/
def auto_discover (inventory : List HandlerDescriptor) : HandlerRegistry :=
  inventory.foldl register new

/-- The keys of the hash index. A hash map yields them in an order of its own,
so statements about this list speak of all its permutations. -/
def topic_subscription_keys (self : HandlerRegistry) : List TopicKey := self.by_topic_and_key.keys

def handlers_for_event (self : HandlerRegistry) (topic_name : String) (topic_key : Option String) :
    List HandlerDescriptor :=
  self.all.filter fun d => d.matches_event topic_name topic_key

def handlers_for_topic_key (self : HandlerRegistry) (topic_name : String)
    (topic_key_filter : Option String) : List HandlerDescriptor :=
  (self.by_topic_and_key.lookup (topic_name, topic_key_filter)).getD []

/-- The names are sorted, then all but the first of each run of equal names are
dropped. The order by code points is that of the UTF-8 bytes. -/
def topic_names (self : HandlerRegistry) : List String :=
  ((self.all.map fun d => d.topic_name).mergeSort (· ≤ ·)).destutter (· ≠ ·)

def len (self : HandlerRegistry) : Nat := self.all.length

def is_empty (self : HandlerRegistry) : Bool := self.all.isEmpty

def iter (self : HandlerRegistry) : List HandlerDescriptor := self.all

theorem iter_auto_discover (inventory : List HandlerDescriptor) :
    (auto_discover inventory).iter = inventory := by
  have hfold : ∀ (rest : List HandlerDescriptor) (registry : HandlerRegistry),
      (rest.foldl register registry).all = registry.all ++ rest := by
    intro rest
    induction rest with
    | nil => simp
    | cons descriptor rest ih =>
      intro registry
      rw [List.foldl_cons, ih]
      simp [register]
  exact hfold inventory new

/-- A group holds the registered descriptors of its topic and filter, in
registration order. -/
theorem handlers_for_topic_key_eq (self : HandlerRegistry) (topic_name : String)
    (topic_key_filter : Option String) :
    self.handlers_for_topic_key topic_name topic_key_filter =
      self.iter.filter fun d => d.topicKey = (topic_name, topic_key_filter) :=
  self.group_eq (topic_name, topic_key_filter)

theorem topicKey_of_mem_group {self : HandlerRegistry} {topic_name : String}
    {topic_key_filter : Option String} {descriptor : HandlerDescriptor}
    (hmem : descriptor ∈ self.handlers_for_topic_key topic_name topic_key_filter) :
    descriptor.topicKey = (topic_name, topic_key_filter) := by
  rw [handlers_for_topic_key_eq] at hmem
  simpa using (List.mem_filter.mp hmem).2

theorem topic_subscription_keys_nodup (self : HandlerRegistry) : self.topic_subscription_keys.Nodup :=
  self.by_topic_and_key.keys_nodup

/-- The subscription keys are exactly those of the registered descriptors. -/
theorem mem_topic_subscription_keys_iff (self : HandlerRegistry) (key : TopicKey) :
    key ∈ self.topic_subscription_keys ↔ ∃ d ∈ self.iter, d.topicKey = key :=
  self.mem_keys_iff key

theorem group_ne_nil {self : HandlerRegistry} {key : TopicKey}
    (hkey : key ∈ self.topic_subscription_keys) : self.handlers_for_topic_key key.1 key.2 ≠ [] := by
  obtain ⟨d, hd, htopic⟩ := (mem_topic_subscription_keys_iff self key).mp hkey
  rw [handlers_for_topic_key_eq]
  exact List.ne_nil_of_mem (List.mem_filter.mpr ⟨hd, by simp [htopic]⟩)

end HandlerRegistry

end photon_valence_identity
