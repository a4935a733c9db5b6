import Mathlib.Data.List.MinMax

namespace register

/-- The least of a list of values all of which are present. An empty list and
a missing value both give nothing. -/
def leastPresent {Value : Type*} [Min Value] (answers : List (Option Value)) : Option Value :=
  if answers.all Option.isSome then (answers.filterMap id).min? else none

/-- Appending a value to a list moves its minimum the way a running minimum
is updated. -/
theorem min?_concat {Value : Type*} [Min Value] (values : List Value) (value : Value) :
    (values ++ [value]).min? = some (values.min?.elim value fun least => min least value) := by
  cases values with
  | nil => rfl
  | cons first rest => simp [List.min?_cons', List.foldl_append]

theorem leastPresent_eq_some_iff {Value : Type*} [LinearOrder Value] {answers : List (Option Value)}
    {least : Value} :
    leastPresent answers = some least ↔
      (∀ answer ∈ answers, ∃ value, answer = some value ∧ least ≤ value) ∧ some least ∈ answers := by
  unfold leastPresent
  constructor
  · intro hleast
    split at hleast
    · rename_i hpresent
      obtain ⟨hmem, hlower⟩ := List.min?_eq_some_iff.mp hleast
      simp only [List.mem_filterMap, id_eq, exists_eq_right] at hmem hlower
      refine ⟨fun answer hanswer => ?_, hmem⟩
      obtain ⟨value, rfl⟩ := Option.isSome_iff_exists.mp (List.all_eq_true.mp hpresent answer hanswer)
      exact ⟨value, rfl, hlower value hanswer⟩
    · cases hleast
  · rintro ⟨hlower, hmem⟩
    have hpresent : answers.all Option.isSome := by
      refine List.all_eq_true.mpr fun answer hanswer => ?_
      obtain ⟨value, rfl, _⟩ := hlower answer hanswer
      rfl
    rw [if_pos hpresent, List.min?_eq_some_iff]
    simp only [List.mem_filterMap, id_eq, exists_eq_right]
    refine ⟨hmem, fun value hvalue => ?_⟩
    obtain ⟨_, hsome, hle⟩ := hlower _ hvalue
    cases hsome
    exact hle

/-- Nothing is returned exactly for an empty list and for a list with a
missing value. -/
theorem leastPresent_eq_none_iff {Value : Type*} [LinearOrder Value] {answers : List (Option Value)} :
    leastPresent answers = none ↔ answers = [] ∨ none ∈ answers := by
  unfold leastPresent
  split
  · rename_i hpresent
    have hnone : none ∉ answers := fun hmem => by simpa using List.all_eq_true.mp hpresent none hmem
    simp only [List.min?_eq_none_iff, List.filterMap_eq_nil_iff, id_eq, hnone, or_false]
    constructor
    · intro hall
      refine List.eq_nil_iff_forall_not_mem.mpr fun answer hanswer => hnone ?_
      rwa [← hall answer hanswer]
    · rintro rfl
      simp
  · rename_i hpresent
    simp only [List.all_eq_true, not_forall, Option.isSome_iff_ne_none] at hpresent
    obtain ⟨answer, hanswer, hmissing⟩ := hpresent
    simp only [ne_eq, not_not] at hmissing
    subst hmissing
    simp [hanswer]

theorem exists_leastPresent_iff {Value : Type*} [LinearOrder Value] {answers : List (Option Value)} :
    (∃ least, leastPresent answers = some least) ↔ (∃ answer, answer ∈ answers) ∧ none ∉ answers := by
  rw [← Option.ne_none_iff_exists', ne_eq, leastPresent_eq_none_iff, not_or, List.eq_nil_iff_forall_not_mem]
  simp only [not_forall, not_not]

/-- Order and repetitions of the answers do not matter. -/
theorem leastPresent_congr {Value : Type*} [LinearOrder Value] {answers others : List (Option Value)}
    (hsame : ∀ answer, answer ∈ answers ↔ answer ∈ others) : leastPresent answers = leastPresent others := by
  ext least
  simp only [leastPresent_eq_some_iff, hsame]

/-- Further answers can only lower the least value. -/
theorem leastPresent_le_of_subset {Value : Type*} [LinearOrder Value] {answers others : List (Option Value)}
    {least other : Value} (hsubset : answers ⊆ others) (hleast : leastPresent answers = some least)
    (hother : leastPresent others = some other) : other ≤ least := by
  have hmem := (leastPresent_eq_some_iff.mp hleast).2
  obtain ⟨value, hvalue, hle⟩ := (leastPresent_eq_some_iff.mp hother).1 _ (hsubset hmem)
  cases hvalue
  exact hle

end register
