import Mathlib.Data.List.Basic
import Mathlib.Data.List.Perm.Basic

namespace slots

/-- Collecting the entries of every key of a list without repetitions gives the
entries that have one of the keys. -/
theorem flatMap_filter_perm {Entry Key : Type*} [DecidableEq Key] (view : Entry → Key)
    (entries : List Entry) {keys : List Key} (hnodup : keys.Nodup) :
    (keys.flatMap fun key => entries.filter fun entry => view entry = key).Perm
      (entries.filter fun entry => view entry ∈ keys) := by
  induction keys with
  | nil => simp
  | cons key rest ih =>
    obtain ⟨hfresh, hrest⟩ := List.nodup_cons.mp hnodup
    have hhead : (entries.filter fun entry => view entry ∈ key :: rest).filter (fun entry => view entry = key) =
        entries.filter fun entry => view entry = key := by
      rw [List.filter_filter]
      apply List.filter_congr
      intro entry _
      by_cases hkey : view entry = key <;> simp [hkey]
    have htail : (entries.filter fun entry => view entry ∈ key :: rest).filter (fun entry => !(view entry = key)) =
        entries.filter fun entry => view entry ∈ rest := by
      rw [List.filter_filter]
      apply List.filter_congr
      intro entry _
      by_cases hkey : view entry = key
      · simp [hkey, hfresh]
      · simp [hkey]
    have hsplit := List.filter_append_perm (fun entry => decide (view entry = key))
      (entries.filter fun entry => view entry ∈ key :: rest)
    rw [hhead, htail] at hsplit
    exact ((ih hrest).append_left _).trans hsplit

/-- A selection of the entries that goes by their keys is collected from the
entries of each key. -/
theorem flatMap_filter_perm_of_iff {Entry Key : Type*} [DecidableEq Key] (view : Entry → Key)
    {entries : List Entry} {keys : List Key} {selects : Entry → Bool} (hnodup : keys.Nodup)
    (hselects : ∀ entry ∈ entries, selects entry = true ↔ view entry ∈ keys) :
    (keys.flatMap fun key => entries.filter fun entry => view entry = key).Perm (entries.filter selects) := by
  have hsame : (entries.filter fun entry => view entry ∈ keys) = entries.filter selects := by
    refine List.filter_congr fun entry hentry => ?_
    rw [Bool.eq_iff_iff, decide_eq_true_eq, hselects entry hentry]
  exact (flatMap_filter_perm view entries hnodup).trans (.of_eq hsame)

/-- A list is collected from its parts when every entry has its key among
them. -/
theorem flatMap_filter_perm_self {Entry Key : Type*} [DecidableEq Key] (view : Entry → Key)
    {entries : List Entry} {keys : List Key} (hnodup : keys.Nodup)
    (hcovers : ∀ entry ∈ entries, view entry ∈ keys) :
    (keys.flatMap fun key => entries.filter fun entry => view entry = key).Perm entries := by
  have hall : (entries.filter fun _ => true) = entries := List.filter_true entries
  have hselects : ∀ entry ∈ entries, (fun _ => true) entry = true ↔ view entry ∈ keys :=
    fun entry hentry => iff_of_true rfl (hcovers entry hentry)
  exact (flatMap_filter_perm_of_iff view hnodup hselects).trans (.of_eq hall)

/-- Numbering the entries does not change what is collected from them. -/
theorem flatMap_zipIdx_fst {Entry Part : Type*} (entries : List Entry) (parts : Entry → List Part) :
    (entries.zipIdx.flatMap fun entry => parts entry.1) = entries.flatMap parts := by
  have hmap : (entries.zipIdx.map Prod.fst).flatMap parts = entries.zipIdx.flatMap fun entry => parts entry.1 :=
    List.flatMap_map _ _ _
  rw [← hmap, List.zipIdx_map_fst]

end slots
