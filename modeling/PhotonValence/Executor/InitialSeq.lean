import Mathlib.Order.Bounds.Basic
import PhotonValence.Handler.Descriptor
import PhotonValence.Register.Least

open photon_backend register

namespace photon_valence_identity.executor

/-- The three accumulators of the loop in `initial_subscription_after_seq`. -/
structure ResumeScan where
  min_cp : Option Int := none
  any_durable : Bool := false
  all_have_cp : Bool := true
deriving DecidableEq, Repr

namespace ResumeScan

/-- One iteration of the loop. `get_checkpoint_seq` is what the lookup under a
subscription name answers in this iteration; it is asked only for a durable
handler with a name. -/
def visit (scan : ResumeScan) (h : HandlerDescriptor) (get_checkpoint_seq : String → CheckpointAnswer) :
    ResumeScan :=
  if h.mode ≠ .Durable then scan
  else
    match h.subscription_name with
    | none => { scan with any_durable := true, all_have_cp := false }
    | some name =>
      match get_checkpoint_seq name with
      | .ok (some s) =>
        { scan with any_durable := true, min_cp := some (scan.min_cp.elim s fun m => min m s) }
      | .ok none => { scan with any_durable := true, all_have_cp := false }
      | .error _ => { scan with any_durable := true, all_have_cp := false }

def result (scan : ResumeScan) : Option Int :=
  if !scan.any_durable then none
  else if scan.all_have_cp then scan.min_cp
  else none

/-- The loop over a list of handlers, each with the lookup of its iteration. -/
def of_calls (calls : List (HandlerDescriptor × (String → CheckpointAnswer))) : ResumeScan :=
  calls.foldl (fun scan call => scan.visit call.1 call.2) {}

end ResumeScan

def initial_subscription_after_seq
    (get_checkpoint_seq : String → String → Option String → CheckpointAnswer)
    (topic_name : String) (topic_key_filter : Option String) (handlers : List HandlerDescriptor) :
    Option Int :=
  (handlers.foldl
    (fun scan h => scan.visit h fun name => get_checkpoint_seq name topic_name topic_key_filter)
    ({} : ResumeScan)).result

/-- The checkpoint a lookup yields for a handler: none for an unnamed handler,
a missing checkpoint or an error. -/
def checkpoint (h : HandlerDescriptor) (get_checkpoint_seq : String → CheckpointAnswer) : Option Int :=
  match h.subscription_name with
  | none => none
  | some name =>
    match get_checkpoint_seq name with
    | .ok answer => answer
    | .error _ => none

theorem checkpoint_eq_some_iff {h : HandlerDescriptor} {get_checkpoint_seq : String → CheckpointAnswer}
    {s : Int} :
    checkpoint h get_checkpoint_seq = some s ↔
      ∃ name, h.subscription_name = some name ∧ get_checkpoint_seq name = .ok (some s) := by
  unfold checkpoint
  cases h.subscription_name with
  | none => simp
  | some name => cases hanswer : get_checkpoint_seq name <;> simp [hanswer]

/-- The checkpoints of the durable handlers of a scan, in visiting order. -/
def durable_checkpoints (calls : List (HandlerDescriptor × (String → CheckpointAnswer))) :
    List (Option Int) :=
  (calls.filter fun call => call.1.mode = .Durable).map fun call => checkpoint call.1 call.2

/-- The loop invariant: the running minimum is that of the checkpoints seen so
far, and the flags say whether there were any and whether all were present.
The minimum may be partial while `all_have_cp` is already false. -/
structure ResumeScan.Summarizes (scan : ResumeScan) (seen : List (Option Int)) : Prop where
  min_cp : scan.min_cp = (seen.filterMap id).min?
  any_durable : scan.any_durable = !seen.isEmpty
  all_have_cp : scan.all_have_cp = seen.all Option.isSome

theorem ResumeScan.Summarizes.visit {scan : ResumeScan} {seen : List (Option Int)}
    (hscan : scan.Summarizes seen) (h : HandlerDescriptor)
    (get_checkpoint_seq : String → CheckpointAnswer) :
    (scan.visit h get_checkpoint_seq).Summarizes (seen ++ durable_checkpoints [(h, get_checkpoint_seq)]) := by
  obtain ⟨hmin, hany, hall⟩ := hscan
  by_cases hmode : h.mode = .Durable
  · have hseen : durable_checkpoints [(h, get_checkpoint_seq)] = [checkpoint h get_checkpoint_seq] := by
      simp [durable_checkpoints, hmode]
    rw [hseen]
    cases hname : h.subscription_name with
    | none => constructor <;> simp [ResumeScan.visit, checkpoint, hmode, hname, hmin]
    | some name =>
      cases hanswer : get_checkpoint_seq name with
      | error e => constructor <;> simp [ResumeScan.visit, checkpoint, hmode, hname, hanswer, hmin]
      | ok answer =>
        cases answer with
        | none => constructor <;> simp [ResumeScan.visit, checkpoint, hmode, hname, hanswer, hmin]
        | some s =>
          have hconcat := min?_concat (seen.filterMap id) s
          constructor
          · simpa [ResumeScan.visit, checkpoint, hmode, hname, hanswer, hmin] using hconcat.symm
          · simp [ResumeScan.visit, checkpoint, hmode, hname, hanswer]
          · simp [ResumeScan.visit, checkpoint, hmode, hname, hanswer, hall]
  · have hseen : durable_checkpoints [(h, get_checkpoint_seq)] = [] := by
      simp [durable_checkpoints, hmode]
    rw [hseen, List.append_nil]
    simpa [ResumeScan.visit, hmode] using ⟨hmin, hany, hall⟩

theorem ResumeScan.summarizes_of_calls (calls : List (HandlerDescriptor × (String → CheckpointAnswer))) :
    (ResumeScan.of_calls calls).Summarizes (durable_checkpoints calls) := by
  induction calls using List.reverseRecOn with
  | nil => constructor <;> rfl
  | append_singleton calls call ih =>
    have hsplit : durable_checkpoints (calls ++ [call]) =
        durable_checkpoints calls ++ durable_checkpoints [call] := by
      simp [durable_checkpoints]
    rw [hsplit, ResumeScan.of_calls, List.foldl_append]
    exact ih.visit call.1 call.2

theorem ResumeScan.Summarizes.result_eq {scan : ResumeScan} {seen : List (Option Int)}
    (hscan : scan.Summarizes seen) : scan.result = leastPresent seen := by
  obtain ⟨hmin, hany, hall⟩ := hscan
  cases seen with
  | nil => simp [ResumeScan.result, hany, leastPresent]
  | cons first rest =>
    unfold ResumeScan.result leastPresent
    rw [hany, hall, hmin]
    simp

/-- The resume point of a scan is the least checkpoint of its durable handlers
when all have one, and nothing otherwise. -/
theorem ResumeScan.result_of_calls (calls : List (HandlerDescriptor × (String → CheckpointAnswer))) :
    (ResumeScan.of_calls calls).result = leastPresent (durable_checkpoints calls) :=
  (ResumeScan.summarizes_of_calls calls).result_eq

/-- With a fixed lookup the function is a scan that asks it for every handler. -/
theorem initial_subscription_after_seq_eq
    (get_checkpoint_seq : String → String → Option String → CheckpointAnswer)
    (topic_name : String) (topic_key_filter : Option String) (handlers : List HandlerDescriptor) :
    initial_subscription_after_seq get_checkpoint_seq topic_name topic_key_filter handlers =
      leastPresent (durable_checkpoints (handlers.map fun h =>
        (h, fun name => get_checkpoint_seq name topic_name topic_key_filter))) := by
  rw [← ResumeScan.result_of_calls, ResumeScan.of_calls, List.foldl_map]
  rfl

theorem mem_durable_checkpoints {handlers : List HandlerDescriptor}
    {get_checkpoint_seq : String → CheckpointAnswer} {answer : Option Int} :
    answer ∈ durable_checkpoints (handlers.map fun h => (h, get_checkpoint_seq)) ↔
      ∃ h ∈ handlers, h.mode = .Durable ∧ checkpoint h get_checkpoint_seq = answer := by
  simp only [durable_checkpoints, List.mem_map, List.mem_filter, decide_eq_true_eq]
  constructor
  · rintro ⟨_, ⟨⟨h, hh, rfl⟩, hmode⟩, hanswer⟩
    exact ⟨h, hh, hmode, hanswer⟩
  · rintro ⟨h, hh, hmode, hanswer⟩
    exact ⟨_, ⟨⟨h, hh, rfl⟩, hmode⟩, hanswer⟩

/-- A resume point is the least checkpoint of the durable handlers, all of
which have one. -/
theorem initial_subscription_after_seq_eq_some_iff
    {get_checkpoint_seq : String → String → Option String → CheckpointAnswer}
    {topic_name : String} {topic_key_filter : Option String} {handlers : List HandlerDescriptor}
    {m : Int} :
    initial_subscription_after_seq get_checkpoint_seq topic_name topic_key_filter handlers = some m ↔
      (∀ h ∈ handlers, h.mode = .Durable → ∃ c,
        checkpoint h (get_checkpoint_seq · topic_name topic_key_filter) = some c ∧ m ≤ c) ∧
      ∃ h ∈ handlers, h.mode = .Durable ∧
        checkpoint h (get_checkpoint_seq · topic_name topic_key_filter) = some m := by
  rw [initial_subscription_after_seq_eq, leastPresent_eq_some_iff]
  simp only [mem_durable_checkpoints]
  apply and_congr_left
  intro _
  constructor
  · intro hall h hh hmode
    exact hall _ ⟨h, hh, hmode, rfl⟩
  · rintro hall _ ⟨h, hh, hmode, rfl⟩
    exact hall h hh hmode

section

variable {get_checkpoint_seq : String → String → Option String → CheckpointAnswer} {topic_name : String}
  {topic_key_filter : Option String} {handlers others : List HandlerDescriptor}

theorem exists_initial_subscription_after_seq_iff :
    (∃ m, initial_subscription_after_seq get_checkpoint_seq topic_name topic_key_filter handlers = some m) ↔
      (∃ h ∈ handlers, h.mode = .Durable) ∧ ∀ h ∈ handlers, h.mode = .Durable →
        ∃ c, checkpoint h (get_checkpoint_seq · topic_name topic_key_filter) = some c := by
  rw [initial_subscription_after_seq_eq, exists_leastPresent_iff]
  simp only [mem_durable_checkpoints]
  apply and_congr
  · exact ⟨fun ⟨_, h, hh, hmode, _⟩ => ⟨h, hh, hmode⟩, fun ⟨h, hh, hmode⟩ => ⟨_, h, hh, hmode, rfl⟩⟩
  · constructor
    · intro hnone h hh hmode
      exact Option.ne_none_iff_exists'.mp fun hmissing => hnone ⟨h, hh, hmode, hmissing⟩
    · rintro hall ⟨h, hh, hmode, hmissing⟩
      obtain ⟨c, hc⟩ := hall h hh hmode
      cases hmissing.symm.trans hc

/-- Only the set of the durable handlers matters. -/
theorem initial_subscription_after_seq_congr
    (hsame : ∀ h, h.mode = .Durable → (h ∈ handlers ↔ h ∈ others)) :
    initial_subscription_after_seq get_checkpoint_seq topic_name topic_key_filter handlers =
      initial_subscription_after_seq get_checkpoint_seq topic_name topic_key_filter others := by
  rw [initial_subscription_after_seq_eq, initial_subscription_after_seq_eq]
  refine leastPresent_congr fun answer => ?_
  rw [mem_durable_checkpoints, mem_durable_checkpoints]
  refine exists_congr fun h => ?_
  constructor
  · rintro ⟨hh, hmode, hanswer⟩
    exact ⟨(hsame h hmode).mp hh, hmode, hanswer⟩
  · rintro ⟨hh, hmode, hanswer⟩
    exact ⟨(hsame h hmode).mpr hh, hmode, hanswer⟩

theorem initial_subscription_after_seq_le_of_subset {m m' : Int} (hsubset : handlers ⊆ others)
    (hm : initial_subscription_after_seq get_checkpoint_seq topic_name topic_key_filter handlers = some m)
    (hm' : initial_subscription_after_seq get_checkpoint_seq topic_name topic_key_filter others = some m') :
    m' ≤ m := by
  rw [initial_subscription_after_seq_eq] at hm hm'
  refine leastPresent_le_of_subset (fun answer hanswer => ?_) hm hm'
  rw [mem_durable_checkpoints] at hanswer ⊢
  obtain ⟨h, hh, hmode, hc⟩ := hanswer
  exact ⟨h, hsubset hh, hmode, hc⟩

/-- A handler keeps its checkpoint, or gets a lower one, when the lookup does. -/
theorem checkpoint_lowered {h : HandlerDescriptor} {lookup lower : String → CheckpointAnswer} {c : Int}
    (hlower : ∀ name s, lookup name = .ok (some s) → ∃ s' ≤ s, lower name = .ok (some s'))
    (hc : checkpoint h lookup = some c) : ∃ c' ≤ c, checkpoint h lower = some c' := by
  obtain ⟨name, hname, hanswer⟩ := checkpoint_eq_some_iff.mp hc
  obtain ⟨s', hle, hlowered⟩ := hlower name c hanswer
  exact ⟨s', hle, checkpoint_eq_some_iff.mpr ⟨name, hname, hlowered⟩⟩

theorem initial_subscription_after_seq_lowered
    {lower : String → String → Option String → CheckpointAnswer} {m : Int}
    (hlower : ∀ name s, get_checkpoint_seq name topic_name topic_key_filter = .ok (some s) →
      ∃ s' ≤ s, lower name topic_name topic_key_filter = .ok (some s'))
    (hm : initial_subscription_after_seq get_checkpoint_seq topic_name topic_key_filter handlers = some m) :
    ∃ m' ≤ m, initial_subscription_after_seq lower topic_name topic_key_filter handlers = some m' := by
  obtain ⟨hsome, hall⟩ := exists_initial_subscription_after_seq_iff.mp ⟨m, hm⟩
  have hall' : ∀ h ∈ handlers, h.mode = .Durable →
      ∃ c, checkpoint h (lower · topic_name topic_key_filter) = some c := by
    intro h hh hmode
    obtain ⟨c, hc⟩ := hall h hh hmode
    obtain ⟨c', _, hc'⟩ := checkpoint_lowered hlower hc
    exact ⟨c', hc'⟩
  obtain ⟨m', hm'⟩ := exists_initial_subscription_after_seq_iff.mpr ⟨hsome, hall'⟩
  refine ⟨m', ?_, hm'⟩
  -- the handler the old minimum came from bounds the new one
  obtain ⟨h, hh, hmode, hleast⟩ := (initial_subscription_after_seq_eq_some_iff.mp hm).2
  obtain ⟨c', hle, hc'⟩ := checkpoint_lowered hlower hleast
  obtain ⟨c, hc, hbound⟩ := (initial_subscription_after_seq_eq_some_iff.mp hm').1 h hh hmode
  cases hc'.symm.trans hc
  exact hbound.trans hle

end

/-- What `initial_subscription_after_seq` is for, for one topic, filter and
lookup. -/
structure ResumeSpec (get_checkpoint_seq : String → String → Option String → CheckpointAnswer)
    (topic_name : String) (topic_key_filter : Option String)
    (after_seq : List HandlerDescriptor → Option Int) : Prop where
  some_iff : ∀ handlers, (∃ m, after_seq handlers = some m) ↔
    (∃ h ∈ handlers, h.mode = .Durable) ∧ ∀ h ∈ handlers, h.mode = .Durable →
      ∃ name s, h.subscription_name = some name ∧
        get_checkpoint_seq name topic_name topic_key_filter = .ok (some s)
  least : ∀ handlers m, after_seq handlers = some m →
    IsLeast {s | ∃ h ∈ handlers, h.mode = .Durable ∧ ∃ name, h.subscription_name = some name ∧
      get_checkpoint_seq name topic_name topic_key_filter = .ok (some s)} m
  permuted : ∀ handlers others, handlers.Perm others → after_seq handlers = after_seq others
  repeated : ∀ before rest h, h ∈ before ++ rest → after_seq (before ++ h :: rest) = after_seq (before ++ rest)
  ephemeral : ∀ before rest h, h.mode = .Ephemeral →
    after_seq (before ++ h :: rest) = after_seq (before ++ rest)
  added : ∀ before rest h m, after_seq (before ++ rest) = some m →
    after_seq (before ++ h :: rest) = none ∨ ∃ m' ≤ m, after_seq (before ++ h :: rest) = some m'
  lowered : ∀ lower : String → String → Option String → CheckpointAnswer,
    (∀ name s, get_checkpoint_seq name topic_name topic_key_filter = .ok (some s) →
      ∃ s' ≤ s, lower name topic_name topic_key_filter = .ok (some s')) →
    ∀ handlers m, after_seq handlers = some m →
      ∃ m' ≤ m, initial_subscription_after_seq lower topic_name topic_key_filter handlers = some m'

theorem initial_subscription_after_seq_spec
    (get_checkpoint_seq : String → String → Option String → CheckpointAnswer) (topic_name : String)
    (topic_key_filter : Option String) :
    ResumeSpec get_checkpoint_seq topic_name topic_key_filter
      (initial_subscription_after_seq get_checkpoint_seq topic_name topic_key_filter) := by
  constructor
  · intro handlers
    simp only [exists_initial_subscription_after_seq_iff, checkpoint_eq_some_iff]
    refine and_congr_right fun _ => forall₃_congr fun h _ _ => exists_comm
  · intro handlers m hm
    obtain ⟨hlower, h, hh, hmode, hleast⟩ := initial_subscription_after_seq_eq_some_iff.mp hm
    refine ⟨⟨h, hh, hmode, checkpoint_eq_some_iff.mp hleast⟩, ?_⟩
    rintro s ⟨h', hh', hmode', hs⟩
    obtain ⟨c, hc, hle⟩ := hlower h' hh' hmode'
    cases hc.symm.trans (checkpoint_eq_some_iff.mpr hs)
    exact hle
  · intro handlers others hperm
    exact initial_subscription_after_seq_congr fun h _ => hperm.mem_iff
  · intro before rest h hmem
    refine initial_subscription_after_seq_congr fun h' _ => ?_
    rw [List.perm_middle.mem_iff, List.mem_cons]
    exact or_iff_right_of_imp fun heq => heq ▸ hmem
  · intro before rest h hmode
    refine initial_subscription_after_seq_congr fun h' hmode' => ?_
    rw [List.perm_middle.mem_iff, List.mem_cons]
    refine or_iff_right fun heq => ?_
    rw [heq, hmode] at hmode'
    cases hmode'
  · intro before rest h m hm
    have hsubset : before ++ rest ⊆ before ++ h :: rest :=
      ((List.sublist_cons_self h rest).append_left before).subset
    cases hm' : initial_subscription_after_seq get_checkpoint_seq topic_name topic_key_filter
        (before ++ h :: rest) with
    | none => exact .inl rfl
    | some m' => exact .inr ⟨m', initial_subscription_after_seq_le_of_subset hsubset hm hm', rfl⟩
  · intro lower hlower handlers m hm
    exact initial_subscription_after_seq_lowered hlower hm

end photon_valence_identity.executor
