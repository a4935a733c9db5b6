import Mathlib.Data.List.MinMax

namespace register

/-- The greatest value a log holds under a key, if the key was ever written. -/
def greatest {Key Value : Type*} [DecidableEq Key] [Max Value] (log : List (Key × Value)) (key : Key) :
    Option Value :=
  ((log.filter fun entry => entry.1 = key).map Prod.snd).max?

private theorem mem_values_iff {Key Value : Type*} [DecidableEq Key] {log : List (Key × Value)}
    {key : Key} {value : Value} :
    value ∈ (log.filter fun entry => entry.1 = key).map Prod.snd ↔ (key, value) ∈ log := by
  simp only [List.mem_map, List.mem_filter, decide_eq_true_eq, Prod.exists]
  constructor
  · rintro ⟨_, _, ⟨hmem, rfl⟩, rfl⟩
    exact hmem
  · intro hmem
    exact ⟨key, value, ⟨hmem, rfl⟩, rfl⟩

theorem greatest_eq_some_iff {Key Value : Type*} [DecidableEq Key] [LinearOrder Value]
    {log : List (Key × Value)} {key : Key} {value : Value} :
    greatest log key = some value ↔
      (key, value) ∈ log ∧ ∀ other, (key, other) ∈ log → other ≤ value := by
  simp only [greatest, List.max?_eq_some_iff, mem_values_iff]

theorem greatest_eq_none_iff {Key Value : Type*} [DecidableEq Key] [LinearOrder Value]
    {log : List (Key × Value)} {key : Key} :
    greatest log key = none ↔ ∀ value, (key, value) ∉ log := by
  simp only [greatest, List.max?_eq_none_iff, List.eq_nil_iff_forall_not_mem, mem_values_iff]

/-- The register sees only what was written under its key. -/
theorem greatest_congr {Key Value : Type*} [DecidableEq Key] [LinearOrder Value] {log other : List (Key × Value)}
    {key : Key} (hsame : ∀ value, (key, value) ∈ log ↔ (key, value) ∈ other) :
    greatest log key = greatest other key := by
  apply Option.ext
  intro value
  rw [greatest_eq_some_iff, greatest_eq_some_iff]
  simp only [hsame]

/-- Everything written under a key lies at or below what the register holds. -/
theorem exists_greatest_of_mem {Key Value : Type*} [DecidableEq Key] [LinearOrder Value]
    {log : List (Key × Value)} {key : Key} {value : Value} (hmem : (key, value) ∈ log) :
    ∃ top, greatest log key = some top ∧ value ≤ top := by
  cases htop : greatest log key with
  | none => exact absurd hmem (greatest_eq_none_iff.mp htop value)
  | some top => exact ⟨top, rfl, (greatest_eq_some_iff.mp htop).2 value hmem⟩

end register
