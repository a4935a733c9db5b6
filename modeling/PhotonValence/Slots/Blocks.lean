import Mathlib.Data.List.Basic
import Mathlib.Data.List.Range
import PhotonValence.Slots.Partition

namespace slots

/-- The parts of the numbered slots one slot after the other, each with the
number of its slot. -/
def blocks {Part : Type*} (order : List Nat) (parts : Nat → List Part) : List (Nat × Part) :=
  order.flatMap fun i => (parts i).map (i, ·)

theorem blocks_append {Part : Type*} (first second : List Nat) (parts : Nat → List Part) :
    blocks (first ++ second) parts = blocks first parts ++ blocks second parts :=
  List.flatMap_append

theorem blocks_singleton {Part : Type*} (i : Nat) (parts : Nat → List Part) :
    blocks [i] parts = (parts i).map (i, ·) :=
  List.append_nil _

theorem blocks_congr {Part : Type*} {order : List Nat} {parts parts' : Nat → List Part}
    (hsame : ∀ i ∈ order, parts i = parts' i) : blocks order parts = blocks order parts' := by
  unfold blocks
  rw [List.flatMap_def, List.flatMap_def]
  exact congrArg List.flatten (List.map_congr_left fun i hi => by rw [hsame i hi])

/-- A slot without parts adds nothing. -/
theorem blocks_concat_nil {Part : Type*} {order : List Nat} {i : Nat} {parts : Nat → List Part}
    (hnone : parts i = []) : blocks (order ++ [i]) parts = blocks order parts := by
  rw [blocks_append, blocks_singleton, hnone, List.map_nil, List.append_nil]

/-- What is added to the last slot is added at the end. -/
theorem blocks_concat_append {Part : Type*} {order : List Nat} {i : Nat} {parts parts' : Nat → List Part}
    {added : List Part} (hothers : ∀ j ∈ order, parts' j = parts j) (hlast : parts' i = parts i ++ added) :
    blocks (order ++ [i]) parts' = blocks (order ++ [i]) parts ++ added.map (i, ·) := by
  rw [blocks_append, blocks_append, blocks_singleton, blocks_singleton, hlast, List.map_append,
    blocks_congr hothers, List.append_assoc]

/-- When all slots but the last are complete, their parts are the beginning of
the complete ones. -/
theorem blocks_concat_prefix {Part : Type*} {order : List Nat} {i : Nat} {parts whole : Nat → List Part}
    (hothers : ∀ j ∈ order, parts j = whole j) (hlast : parts i <+: whole i) :
    blocks (order ++ [i]) parts <+: blocks (order ++ [i]) whole := by
  obtain ⟨rest, hrest⟩ := hlast
  refine ⟨rest.map (i, ·), ?_⟩
  rw [blocks_append, blocks_append, blocks_singleton, blocks_singleton, ← hrest, List.map_append,
    blocks_congr hothers, List.append_assoc]

/-- Collecting from the first slots of a list, in their order, at most what the
entries contribute gives a part of what all entries contribute. -/
theorem flatMap_range_sublist {Entry Part : Type*} {entries : List Entry} {collected : Nat → List Part}
    {parts : Entry → List Part} {n : Nat} (hn : n ≤ entries.length)
    (hcollected : ∀ i entry, entries[i]? = some entry → (collected i).Sublist (parts entry)) :
    ((List.range n).flatMap collected).Sublist (entries.flatMap parts) := by
  have htake : ((List.range n).flatMap collected).Sublist ((entries.take n).flatMap parts) := by
    induction n with
    | zero => exact List.nil_sublist _
    | succ n ih =>
      have hlast : entries[n]? = some entries[n] := List.getElem?_eq_getElem (by omega)
      rw [List.range_succ, List.flatMap_append, List.flatMap_singleton, List.take_add_one, List.flatMap_append, hlast,
        Option.toList_some, List.flatMap_singleton]
      exact (ih (by omega)).append (hcollected n _ hlast)
  have hsplit : entries.flatMap parts = (entries.take n).flatMap parts ++ (entries.drop n).flatMap parts := by
    rw [← List.flatMap_append, List.take_append_drop]
  rw [hsplit]
  exact htake.trans (List.sublist_append_left _ _)

/-- Collecting from all slots of a list, in their order, is collecting from the
entries. -/
theorem flatMap_range_eq {Entry Part : Type*} {entries : List Entry} {collected : Nat → List Part}
    {parts : Entry → List Part}
    (hcollected : ∀ i entry, entries[i]? = some entry → collected i = parts entry) :
    (List.range entries.length).flatMap collected = entries.flatMap parts := by
  induction entries generalizing collected with
  | nil => rfl
  | cons entry rest ih =>
    have hrest : ((List.range rest.length).flatMap fun i => collected (i + 1)) = rest.flatMap parts :=
      ih fun i other hother => hcollected (i + 1) other hother
    rw [List.length_cons, List.range_succ_eq_map, List.flatMap_cons, List.flatMap_map, List.flatMap_cons,
      hcollected 0 entry rfl]
    exact congrArg (parts entry ++ ·) hrest

/-- Numbered parts put together slot by slot are the parts in another order. -/
theorem flatMap_range_perm {Part : Type*} {numbered : List (Nat × Part)} {n : Nat}
    (hbound : ∀ entry ∈ numbered, entry.1 < n) :
    ((List.range n).flatMap fun i => (numbered.filter fun entry => entry.1 = i).map Prod.snd).Perm
      (numbered.map Prod.snd) := by
  have hparts : ((List.range n).flatMap fun i => numbered.filter fun entry => entry.1 = i).Perm numbered :=
    flatMap_filter_perm_self Prod.fst List.nodup_range fun entry hentry => List.mem_range.mpr (hbound entry hentry)
  rw [← List.map_flatMap]
  exact hparts.map Prod.snd

end slots
