import Mathlib.Data.List.Basic

namespace slots

/-- Writing one slot leaves every other slot as it was. -/
theorem getElem?_set_cases {Entry : Type*} {entries : List Entry} {i j : Nat} {written found : Entry}
    (hfound : (entries.set i written)[j]? = some found) :
    (j = i ∧ found = written) ∨ (j ≠ i ∧ entries[j]? = some found) := by
  rw [List.getElem?_set] at hfound
  split at hfound
  · rename_i hij
    split at hfound
    · exact .inl ⟨hij.symm, (Option.some.inj hfound).symm⟩
    · cases hfound
  · rename_i hij
    exact .inr ⟨fun h => hij h.symm, hfound⟩

theorem getElem?_set_self {Entry : Type*} {entries : List Entry} {i : Nat} {old written : Entry}
    (hold : entries[i]? = some old) : (entries.set i written)[i]? = some written := by
  obtain ⟨hlt, _⟩ := List.getElem?_eq_some_iff.mp hold
  simp [hlt]

/-- A slot of an extended list is an old slot or one of the added ones. -/
theorem getElem?_append_cases {Entry : Type*} {entries added : List Entry} {j : Nat} {found : Entry}
    (hfound : (entries ++ added)[j]? = some found) :
    entries[j]? = some found ∨ (entries.length ≤ j ∧ added[j - entries.length]? = some found) := by
  by_cases hlt : j < entries.length
  · exact .inl (by rwa [List.getElem?_append_left hlt] at hfound)
  · rw [List.getElem?_append_right (by omega)] at hfound
    exact .inr ⟨by omega, hfound⟩

theorem getElem?_append_of_some {Entry : Type*} {entries added : List Entry} {j : Nat} {found : Entry}
    (hfound : entries[j]? = some found) : (entries ++ added)[j]? = some found := by
  obtain ⟨hlt, _⟩ := List.getElem?_eq_some_iff.mp hfound
  rwa [List.getElem?_append_left hlt]

/-- A view that does not tell the written entry from the old one does not see
the write. -/
theorem map_set_eq {Entry View : Type*} {view : Entry → View} {entries : List Entry} {i : Nat}
    {old written : Entry} (hold : entries[i]? = some old) (hsame : view written = view old) :
    (entries.set i written).map view = entries.map view := by
  induction entries generalizing i with
  | nil => rfl
  | cons entry rest ih =>
    cases i with
    | zero =>
      simp only [List.getElem?_cons_zero, Option.some.injEq] at hold
      subst hold
      simp [hsame]
    | succ i =>
      simp only [List.getElem?_cons_succ] at hold
      simp [ih hold]

/-- Writing one slot moves a count by what the old and the new entry
contribute to it. -/
theorem countP_set_add {Entry : Type*} {p : Entry → Bool} {entries : List Entry} {i : Nat}
    {old written : Entry} (hold : entries[i]? = some old) :
    (entries.set i written).countP p + (if p old then 1 else 0) =
      entries.countP p + (if p written then 1 else 0) := by
  induction entries generalizing i with
  | nil => simp at hold
  | cons entry rest ih =>
    cases i with
    | zero =>
      simp only [List.getElem?_cons_zero, Option.some.injEq] at hold
      subst hold
      simp only [List.set_cons_zero, List.countP_cons]
      omega
    | succ i =>
      simp only [List.getElem?_cons_succ] at hold
      have hrest := ih hold
      simp only [List.set_cons_succ, List.countP_cons]
      omega

/-- Writing a slot that is not selected before or after is not seen in the
selection. -/
theorem filter_set_of_not {Entry : Type*} {selects : Entry → Bool} {entries : List Entry} {i : Nat}
    {old written : Entry} (hold : entries[i]? = some old) (hbefore : selects old = false)
    (hafter : selects written = false) : (entries.set i written).filter selects = entries.filter selects := by
  induction entries generalizing i with
  | nil => rfl
  | cons entry rest ih =>
    cases i with
    | zero =>
      simp only [List.getElem?_cons_zero, Option.some.injEq] at hold
      subst hold
      simp [hbefore, hafter]
    | succ i =>
      simp only [List.getElem?_cons_succ] at hold
      simp [List.filter_cons, ih hold]

/-- Writing a selected slot is writing one slot of the selection. -/
theorem exists_filter_set {Entry : Type*} {selects : Entry → Bool} {entries : List Entry} {i : Nat}
    {old : Entry} (hold : entries[i]? = some old) (hselected : selects old = true) :
    ∃ j, (entries.filter selects)[j]? = some old ∧ ∀ written, selects written = true →
      (entries.set i written).filter selects = (entries.filter selects).set j written := by
  induction entries generalizing i with
  | nil => simp at hold
  | cons entry rest ih =>
    cases i with
    | zero =>
      simp only [List.getElem?_cons_zero, Option.some.injEq] at hold
      subst hold
      exact ⟨0, by simp [hselected], fun written hwritten => by simp [hselected, hwritten]⟩
    | succ i =>
      simp only [List.getElem?_cons_succ] at hold
      obtain ⟨j, hj, hset⟩ := ih hold
      cases hentry : selects entry with
      | true =>
        exact ⟨j + 1, by simpa [hentry] using hj, fun written hwritten => by simp [hentry, hset written hwritten]⟩
      | false =>
        exact ⟨j, by simpa [hentry] using hj, fun written hwritten => by simp [hentry, hset written hwritten]⟩

/-- Extending the shorter list of a zip pairs what is added with the next slot
of the longer one. -/
theorem zip_concat {Entry Added : Type*} {entries : List Entry} {paired : List Added} {entry : Entry}
    {added : Added} (hnext : entries[paired.length]? = some entry) :
    entries.zip (paired ++ [added]) = entries.zip paired ++ [(entry, added)] := by
  induction paired generalizing entries with
  | nil =>
    cases entries with
    | nil => simp at hnext
    | cons first rest =>
      simp only [List.length_nil, List.getElem?_cons_zero, Option.some.injEq] at hnext
      subst hnext
      simp
  | cons head tail ih =>
    cases entries with
    | nil => simp at hnext
    | cons first rest =>
      simp only [List.length_cons, List.getElem?_cons_succ] at hnext
      simp [ih hnext]

end slots
