import Mathlib.Data.String.Basic

open String

namespace utf8

/-- Every character with the index of its first byte, when the first one has
the given index. -/
def char_indices_from (index : Nat) : List Char → List (Nat × Char)
  | [] => []
  | c :: rest => (index, c) :: char_indices_from (index + c.utf8Size) rest

/-- The characters of the first `stop` bytes, if these are whole characters. -/
def slice_to : List Char → Nat → Option (List Char)
  | _, 0 => some []
  | [], _ + 1 => none
  | c :: rest, stop + 1 =>
    if c.utf8Size ≤ stop + 1 then (slice_to rest (stop + 1 - c.utf8Size)).map (c :: ·) else none

/-- The beginning of a text that ends before the first character to exceed the
limit. -/
structure LongestFit (limit : Nat) (chars fit : List Char) : Prop where
  begins : fit <+: chars
  len_le : utf8Len fit ≤ limit
  next_exceeds : ∀ next rest, chars = fit ++ next :: rest → limit < utf8Len fit + next.utf8Size

theorem utf8Len_replicate (count : Nat) (c : Char) :
    utf8Len (List.replicate count c) = count * c.utf8Size := by
  induction count with
  | zero => simp
  | succ count ih => rw [List.replicate_succ, utf8Len_cons, ih, Nat.succ_mul]

theorem slice_to_append (front rest : List Char) : slice_to (front ++ rest) (utf8Len front) = some front := by
  induction front with
  | nil => cases rest <;> rfl
  | cons c front ih =>
    have hpos := c.utf8Size_pos
    obtain ⟨stop, hstop⟩ : ∃ stop, utf8Len front + c.utf8Size = stop + 1 :=
      Nat.exists_eq_succ_of_ne_zero (by omega)
    rw [List.cons_append, utf8Len_cons, hstop, slice_to, if_pos (by omega), ← hstop, Nat.add_sub_cancel, ih]
    rfl

/-- A slice is a beginning of the text with that many bytes. -/
theorem slice_to_eq_some_iff {chars front : List Char} {stop : Nat} :
    slice_to chars stop = some front ↔ front <+: chars ∧ utf8Len front = stop := by
  constructor
  · intro hslice
    induction chars generalizing stop front with
    | nil =>
      cases stop with
      | zero =>
        cases hslice
        exact ⟨List.nil_prefix, rfl⟩
      | succ stop => cases hslice
    | cons c rest ih =>
      cases stop with
      | zero =>
        cases hslice
        exact ⟨List.nil_prefix, rfl⟩
      | succ stop =>
        rw [slice_to] at hslice
        split at hslice
        · obtain ⟨front, hfront, rfl⟩ := Option.map_eq_some_iff.mp hslice
          obtain ⟨hbegins, hlen⟩ := ih hfront
          refine ⟨List.cons_prefix_cons.mpr ⟨rfl, hbegins⟩, ?_⟩
          rw [utf8Len_cons, hlen]
          omega
        · cases hslice
  · rintro ⟨⟨rest, rfl⟩, rfl⟩
    exact slice_to_append front rest

/-- Every beginning within the limit is a beginning of the longest one. -/
theorem LongestFit.begins_of_len_le {limit : Nat} {chars fit front : List Char}
    (hfit : LongestFit limit chars fit) (hfront : front <+: chars) (hlen : utf8Len front ≤ limit) :
    front <+: fit := by
  obtain hbefore | hafter := List.prefix_or_prefix_of_prefix hfront hfit.begins
  · exact hbefore
  · obtain ⟨more, rfl⟩ := hafter
    cases more with
    | nil => simp
    | cons next more =>
      obtain ⟨rest, hchars⟩ := hfront
      have hexceeds := hfit.next_exceeds next (more ++ rest) (by simp [← hchars])
      simp only [utf8Len_append, utf8Len_cons] at hlen
      omega

theorem LongestFit.unique {limit : Nat} {chars fit other : List Char} (hfit : LongestFit limit chars fit)
    (hother : LongestFit limit chars other) : fit = other := by
  have hbegins := hother.begins_of_len_le hfit.begins hfit.len_le
  have hends := hfit.begins_of_len_le hother.begins hother.len_le
  exact hbegins.eq_of_length_le hends.length_le

/-- A text over the limit fills it but for less than one character. -/
theorem LongestFit.limit_le {limit : Nat} {chars fit : List Char} (hfit : LongestFit limit chars fit)
    (hlong : limit < utf8Len chars) : limit ≤ utf8Len fit + 3 := by
  obtain ⟨rest, rfl⟩ := hfit.begins
  cases rest with
  | nil =>
    have hlen := hfit.len_le
    rw [List.append_nil] at hlong
    omega
  | cons next more =>
    have hexceeds := hfit.next_exceeds next more rfl
    have hwidth := next.utf8Size_le_four
    omega

/-- What fits is cut at the same place whatever follows the first character to
exceed the limit. -/
theorem longestFit_append {limit : Nat} {fit : List Char} {next : Char} (hlen : utf8Len fit ≤ limit)
    (hexceeds : limit < utf8Len fit + next.utf8Size) (rest : List Char) :
    LongestFit limit (fit ++ next :: rest) fit := by
  refine ⟨List.prefix_append _ _, hlen, fun other more hmore => ?_⟩
  obtain ⟨rfl, _⟩ := List.cons.inj (List.append_cancel_left hmore)
  exact hexceeds

/-- The last of the ends of characters within the limit is where the longest
fit ends. -/
theorem exists_longestFit (limit index : Nat) (chars : List Char) (hindex : index ≤ limit) :
    ∃ fit, LongestFit (limit - index) chars fit ∧
      (((char_indices_from index chars).map fun (index, c) => index + c.utf8Size).takeWhile
        (· ≤ limit)).getLast?.getD index = index + utf8Len fit := by
  induction chars generalizing index with
  | nil => exact ⟨[], ⟨List.nil_prefix, Nat.zero_le _, by simp⟩, rfl⟩
  | cons c rest ih =>
    by_cases hc : index + c.utf8Size ≤ limit
    · obtain ⟨fit, hfit, hlast⟩ := ih (index + c.utf8Size) hc
      refine ⟨c :: fit, ⟨?_, ?_, ?_⟩, ?_⟩
      · exact List.cons_prefix_cons.mpr ⟨rfl, hfit.begins⟩
      · have hlen := hfit.len_le
        rw [utf8Len_cons]
        omega
      · intro next more hmore
        have hexceeds := hfit.next_exceeds next more (List.cons.inj hmore).2
        rw [utf8Len_cons]
        omega
      · simp only [char_indices_from, List.map_cons, List.takeWhile_cons, hc, decide_true, if_true,
          List.getLast?_cons, Option.getD_some, hlast, utf8Len_cons]
        omega
    · refine ⟨[], ⟨List.nil_prefix, Nat.zero_le _, ?_⟩, ?_⟩
      · intro next more hmore
        cases hmore
        simp only [utf8Len_nil]
        omega
      · simp [char_indices_from, hc]

end utf8
