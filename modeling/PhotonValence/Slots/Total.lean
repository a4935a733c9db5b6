import Mathlib.Algebra.GroupWithZero.Nat

namespace slots

/-- Writing one slot moves a total by what the old and the new entry contribute
to it. -/
theorem sum_map_set_add {Entry : Type*} {weight : Entry → Nat} {entries : List Entry} {i : Nat}
    {old written : Entry} (hold : entries[i]? = some old) :
    ((entries.set i written).map weight).sum + weight old = (entries.map weight).sum + weight written := by
  induction entries generalizing i with
  | nil => simp at hold
  | cons entry rest ih =>
    cases i with
    | zero =>
      simp only [List.getElem?_cons_zero, Option.some.injEq] at hold
      subst hold
      simp only [List.set_cons_zero, List.map_cons, List.sum_cons]
      omega
    | succ i =>
      simp only [List.getElem?_cons_succ] at hold
      have hrest := ih hold
      simp only [List.set_cons_succ, List.map_cons, List.sum_cons]
      omega

/-- Entries that lie at or below a bound total at most that bound for each. -/
theorem sum_map_le_mul {Entry : Type*} {weight : Entry → Nat} {entries : List Entry} {bound : Nat}
    (hbound : ∀ entry ∈ entries, weight entry ≤ bound) : (entries.map weight).sum ≤ bound * entries.length := by
  induction entries with
  | nil => exact Nat.zero_le _
  | cons entry rest ih =>
    have hfirst := hbound entry List.mem_cons_self
    have hrest := ih fun other hother => hbound other (List.mem_cons_of_mem _ hother)
    rw [List.map_cons, List.sum_cons, List.length_cons, Nat.mul_succ]
    omega

/-- What the entries are short of their bound is at most the bound for each of
the entries that do not reach it. -/
theorem mul_length_le_sum_map_add {Entry : Type*} {weight : Entry → Nat} {short : Entry → Bool}
    {entries : List Entry} {bound : Nat}
    (hreaches : ∀ entry ∈ entries, short entry = false → bound ≤ weight entry) :
    bound * entries.length ≤ (entries.map weight).sum + bound * entries.countP short := by
  induction entries with
  | nil => exact Nat.zero_le _
  | cons entry rest ih =>
    have hfirst := hreaches entry List.mem_cons_self
    have hrest := ih fun other hother => hreaches other (List.mem_cons_of_mem _ hother)
    rw [List.map_cons, List.sum_cons, List.length_cons, List.countP_cons, Nat.mul_succ]
    cases hshort : short entry with
    | false =>
      have hfull := hfirst hshort
      simp only [Bool.false_eq_true, if_false, Nat.add_zero]
      omega
    | true =>
      simp only [if_true, Nat.mul_succ]
      omega

end slots
