import PhotonValence.Photon.Event

namespace photon_backend

/-- Whether an event belongs to the stream of a topic and key filter. -/
def admits {Value : Type} (topic_name : String) (topic_key_filter : Option String) (ev : Event Value) :
    Bool :=
  ev.topic_name = topic_name ∧ (topic_key_filter = none ∨ topic_key_filter = ev.topic_key)

/-- Whether a stream opened with `subscribe(.., after_seq)` delivers an event
published while it is open. -/
def delivers_live {Value : Type} (after_seq : Option Int) (ev : Event Value) : Prop :=
  ∀ a, after_seq = some a → a < ev.seq

instance {Value : Type} (after_seq : Option Int) (ev : Event Value) :
    Decidable (delivers_live after_seq ev) :=
  match after_seq with
  | none => .isTrue nofun
  | some a => decidable_of_iff (a < ev.seq) ⟨fun hlt _ heq => Option.some.inj heq ▸ hlt, fun h => h a rfl⟩

instance {Value : Type} (after_seq : Option Int) (ev : Event Value) :
    Decidable (delivers_retained after_seq ev) :=
  match after_seq with
  | none => .isFalse (not_delivers_retained_none ev)
  | some a => decidable_of_iff (a < ev.seq) (delivers_retained_some a ev).symm

/-- The rule of a broker that delivers live exactly what comes after the resume
point. -/
def live_after_resume {Value : Type} (after_seq : Option Int) (ev : Event Value) : Bool :=
  delivers_live after_seq ev

/-- What is delivered of the past is delivered of the present. -/
theorem delivers_live_of_retained {Value : Type} {after_seq : Option Int} {ev : Event Value}
    (hretained : delivers_retained after_seq ev) : delivers_live after_seq ev := by
  obtain ⟨a, rfl, hlt⟩ := hretained
  rintro _ ⟨rfl⟩
  exact hlt

/-- An open stream, with the events it has still to hand out. `retained` is
history: what had been published when it was opened. -/
structure Subscription (Value : Type) where
  topic_name : String
  topic_key_filter : Option String
  after_seq : Option Int
  retained : List (Event Value)
  pending : List (Event Value)

/-- A broker that retains what was published and queues it for every stream
that is to deliver it. Streams are numbered by their subscribers. -/
structure Broker (Value : Type) where
  published : List (Event Value)
  streams : Nat → Option (Subscription Value)

namespace Subscription

/-- An event published while the stream is open, under the rule `live` for such
events. -/
def push {Value : Type} (live : Option Int → Event Value → Bool) (self : Subscription Value)
    (ev : Event Value) : Subscription Value :=
  if admits self.topic_name self.topic_key_filter ev ∧ live self.after_seq ev then
    { self with pending := self.pending ++ [ev] }
  else self

/-- Everything a stream has still to hand out is admitted by its topic and
filter and comes after its resume point. -/
def Delivers {Value : Type} (self : Subscription Value) : Prop :=
  ∀ ev ∈ self.pending, admits self.topic_name self.topic_key_filter ev = true ∧
    delivers_live self.after_seq ev

section

variable {Value : Type} {live : Option Int → Event Value → Bool}

theorem push_same (self : Subscription Value) (ev : Event Value) :
    (self.push live ev).topic_name = self.topic_name ∧
      (self.push live ev).topic_key_filter = self.topic_key_filter ∧
      (self.push live ev).after_seq = self.after_seq ∧ (self.push live ev).retained = self.retained := by
  unfold push
  split <;> exact ⟨rfl, rfl, rfl, rfl⟩

theorem push_pending {self : Subscription Value} {ev : Event Value}
    (hadmits : admits self.topic_name self.topic_key_filter ev = true)
    (hlive : live self.after_seq ev = true) : (self.push live ev).pending = self.pending ++ [ev] := by
  unfold push
  rw [if_pos ⟨hadmits, hlive⟩]

theorem push_pending_eq (self : Subscription Value) (ev : Event Value) :
    (self.push live ev).pending = self.pending ++ [ev].filter fun ev =>
      admits self.topic_name self.topic_key_filter ev && live self.after_seq ev := by
  unfold push
  split
  · rename_i hboth
    simp [hboth.1, hboth.2]
  · rename_i hneither
    have hnone : (admits self.topic_name self.topic_key_filter ev && live self.after_seq ev) = false := by
      simpa using hneither
    simp [hnone]

theorem push_eq_self {self : Subscription Value} {ev : Event Value}
    (hdead : ¬ live self.after_seq ev = true) : self.push live ev = self :=
  if_neg fun hboth => hdead hboth.2

theorem pending_sublist_push (self : Subscription Value) (ev : Event Value) :
    self.pending.Sublist (self.push live ev).pending := by
  unfold push
  split
  · exact List.sublist_append_left _ _
  · exact List.Sublist.refl _

end

theorem Delivers.push {Value : Type} {self : Subscription Value} (hdelivers : self.Delivers)
    (ev : Event Value) : (self.push live_after_resume ev).Delivers := by
  unfold Subscription.push
  split
  · rename_i hlive
    intro other hother
    obtain hold | hnew := List.mem_append.mp hother
    · exact hdelivers other hold
    · rw [List.mem_singleton.mp hnew]
      exact ⟨hlive.1, of_decide_eq_true hlive.2⟩
  · exact hdelivers

end Subscription

namespace Broker

def publish {Value : Type} (live : Option Int → Event Value → Bool) (self : Broker Value)
    (ev : Event Value) : Broker Value where
  published := self.published ++ [ev]
  streams i := (self.streams i).map (·.push live ev)

/-- The stream opened by `subscribe(topic_name, topic_key_filter, after_seq)`. -/
def opened {Value : Type} (self : Broker Value) (topic_name : String) (topic_key_filter : Option String)
    (after_seq : Option Int) : Subscription Value where
  topic_name := topic_name
  topic_key_filter := topic_key_filter
  after_seq := after_seq
  retained := self.published
  pending := self.published.filter fun ev =>
    admits topic_name topic_key_filter ev && delivers_retained after_seq ev

def subscribe {Value : Type} (self : Broker Value) (i : Nat) (topic_name : String)
    (topic_key_filter : Option String) (after_seq : Option Int) : Broker Value where
  published := self.published
  streams j := if j = i then some (self.opened topic_name topic_key_filter after_seq) else self.streams j

@[simp] theorem subscribe_streams_self {Value : Type} (self : Broker Value) (i : Nat) (topic_name : String)
    (topic_key_filter : Option String) (after_seq : Option Int) :
    (self.subscribe i topic_name topic_key_filter after_seq).streams i =
      some (self.opened topic_name topic_key_filter after_seq) :=
  if_pos rfl

theorem subscribe_streams_ne {Value : Type} (self : Broker Value) {i j : Nat} (hne : j ≠ i)
    (topic_name : String) (topic_key_filter : Option String) (after_seq : Option Int) :
    (self.subscribe i topic_name topic_key_filter after_seq).streams j = self.streams j :=
  if_neg hne

/-- The next event of a stream, and the broker once it is handed out. -/
def next {Value : Type} (self : Broker Value) (i : Nat) : Option (Event Value × Broker Value) :=
  match self.streams i with
  | none => none
  | some stream =>
    match stream.pending with
    | [] => none
    | ev :: rest => some (ev, { self with
        streams := fun j => if j = i then some { stream with pending := rest } else self.streams j })

theorem opened_delivers {Value : Type} (self : Broker Value) (topic_name : String)
    (topic_key_filter : Option String) (after_seq : Option Int) :
    (self.opened topic_name topic_key_filter after_seq).Delivers := by
  intro ev hev
  obtain ⟨_, hkept⟩ := List.mem_filter.mp hev
  simp only [Bool.and_eq_true, decide_eq_true_eq] at hkept
  exact ⟨hkept.1, delivers_live_of_retained hkept.2⟩

/-- Handing out an event takes the head of one stream and leaves the others. -/
theorem next_eq_some {Value : Type} {self after : Broker Value} {i : Nat} {ev : Event Value}
    (hnext : self.next i = some (ev, after)) :
    ∃ stream rest, self.streams i = some stream ∧ stream.pending = ev :: rest ∧
      after.published = self.published ∧ after.streams i = some { stream with pending := rest } ∧
      ∀ j, j ≠ i → after.streams j = self.streams j := by
  unfold next at hnext
  split at hnext
  · cases hnext
  · rename_i stream hstream
    split at hnext
    · cases hnext
    · rename_i head rest hpending
      cases hnext
      exact ⟨stream, rest, hstream, hpending, rfl, by simp, fun j hne => by simp [hne]⟩

theorem next_of_pending {Value : Type} {self : Broker Value} {i : Nat} {stream : Subscription Value}
    {ev : Event Value} {rest : List (Event Value)} (hstream : self.streams i = some stream)
    (hpending : stream.pending = ev :: rest) :
    ∃ after, self.next i = some (ev, after) ∧ after.streams i = some { stream with pending := rest } := by
  unfold next
  rw [hstream]
  simp only [hpending]
  exact ⟨_, rfl, if_pos rfl⟩

end Broker

end photon_backend
