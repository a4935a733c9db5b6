import PhotonValence.Utf8.Fit

open String utf8

namespace photon_valence_identity.telemetry

def MAX_ERROR_LEN : Nat := 512

/-- `message[..stop]`. Where that panics there is no slice. -/
def slice_to (message : String) (stop : Nat) : Option String :=
  (utf8.slice_to message.toList stop).map String.ofList

/-- `message.is_char_boundary(index)`. -/
def is_char_boundary (message : String) (index : Nat) : Bool := (slice_to message index).isSome

/-- The slice index of `truncate_error`. -/
def prefix_end (message : String) : Nat :=
  let max_prefix_len := MAX_ERROR_LEN - 1
  (((char_indices_from 0 message.toList).map fun (index, character) =>
    index + character.utf8Size).takeWhile (· ≤ max_prefix_len)).getLast?.getD 0

/-- Lengths are in bytes. Nothing is returned where the slice would panic. -/
def truncate_error (message : String) : Option String :=
  if message.utf8ByteSize ≤ MAX_ERROR_LEN then some message
  else (slice_to message (prefix_end message)).map (· ++ "…")

theorem truncate_error_of_short {message : String} (hshort : message.utf8ByteSize ≤ MAX_ERROR_LEN) :
    truncate_error message = some message :=
  if_pos hshort

theorem truncate_error_of_long {message : String} (hlong : MAX_ERROR_LEN < message.utf8ByteSize) :
    truncate_error message = (slice_to message (prefix_end message)).map (· ++ "…") :=
  if_neg (Nat.not_le.mpr hlong)

theorem is_char_boundary_iff {message : String} {index : Nat} :
    is_char_boundary message index = true ↔ ∃ front, front <+: message.toList ∧ utf8Len front = index := by
  simp only [is_char_boundary, slice_to, Option.isSome_map, Option.isSome_iff_exists, slice_to_eq_some_iff]

/-- The slice ends where the longest fit into one byte less than the limit
does. -/
theorem exists_slice (message : String) :
    ∃ fit, LongestFit (MAX_ERROR_LEN - 1) message.toList fit ∧ prefix_end message = utf8Len fit ∧
      slice_to message (prefix_end message) = some (String.ofList fit) := by
  obtain ⟨fit, hfit, hlast⟩ := exists_longestFit (MAX_ERROR_LEN - 1) 0 message.toList (Nat.zero_le _)
  have hend : prefix_end message = utf8Len fit := hlast.trans (Nat.zero_add _)
  have hslice := slice_to_eq_some_iff.mpr ⟨hfit.begins, rfl⟩
  refine ⟨fit, hfit, hend, ?_⟩
  rw [hend, slice_to, hslice, Option.map_some]

theorem exists_truncate_error {message : String} (hlong : MAX_ERROR_LEN < message.utf8ByteSize) :
    ∃ fit, LongestFit (MAX_ERROR_LEN - 1) message.toList fit ∧
      truncate_error message = some (String.ofList fit ++ "…") := by
  obtain ⟨fit, hfit, _, hslice⟩ := exists_slice message
  refine ⟨fit, hfit, ?_⟩
  rw [truncate_error_of_long hlong, hslice, Option.map_some]

/-- The ellipsis takes three bytes. -/
theorem utf8ByteSize_cut (fit : List Char) : (String.ofList fit ++ "…").utf8ByteSize = utf8Len fit + 3 := by
  rw [utf8ByteSize_append, utf8ByteSize_ofList]
  rfl

/-- The cut leaves too little room for the ellipsis exactly when a character ends
in one of the last two places it can be at. -/
theorem cut_too_late_iff {message : String} {fit : List Char}
    (hfit : LongestFit (MAX_ERROR_LEN - 1) message.toList fit) :
    MAX_ERROR_LEN - 2 ≤ utf8Len fit ↔
      is_char_boundary message (MAX_ERROR_LEN - 2) = true ∨ is_char_boundary message (MAX_ERROR_LEN - 1) = true := by
  simp only [is_char_boundary_iff]
  constructor
  · intro hlate
    have hlen := hfit.len_le
    obtain heq | heq : utf8Len fit = MAX_ERROR_LEN - 2 ∨ utf8Len fit = MAX_ERROR_LEN - 1 := by
      unfold MAX_ERROR_LEN at *
      omega
    · exact .inl ⟨fit, hfit.begins, heq⟩
    · exact .inr ⟨fit, hfit.begins, heq⟩
  · have hbound : ∀ front, front <+: message.toList → utf8Len front ≤ MAX_ERROR_LEN - 1 →
        utf8Len front ≤ utf8Len fit := fun front hfront hlen =>
      utf8Len_le_of_prefix (hfit.begins_of_len_le hfront hlen)
    rintro (⟨front, hfront, heq⟩ | ⟨front, hfront, heq⟩)
    · have hle := hbound front hfront (by rw [heq]; decide)
      rwa [heq] at hle
    · have hle := hbound front hfront heq.le
      rw [heq] at hle
      exact Nat.le_trans (by decide) hle

/-- The returned text keeps to the limit exactly when the message does, or no
character of it ends in the two places where the ellipsis does not fit. -/
theorem truncate_error_within_limit_iff (message : String) :
    (∃ result, truncate_error message = some result ∧ result.utf8ByteSize ≤ MAX_ERROR_LEN) ↔
      message.utf8ByteSize ≤ MAX_ERROR_LEN ∨ is_char_boundary message (MAX_ERROR_LEN - 2) = false ∧
        is_char_boundary message (MAX_ERROR_LEN - 1) = false := by
  by_cases hlong : MAX_ERROR_LEN < message.utf8ByteSize
  · obtain ⟨fit, hfit, hresult⟩ := exists_truncate_error hlong
    have hcut := cut_too_late_iff hfit
    rw [or_iff_right (Nat.not_le.mpr hlong), ← Bool.not_eq_true, ← Bool.not_eq_true, ← not_or, ← hcut, hresult]
    simp only [Option.some.injEq, exists_eq_left', utf8ByteSize_cut, MAX_ERROR_LEN]
    omega
  · have hshort := Nat.not_lt.mp hlong
    exact iff_of_true ⟨message, truncate_error_of_short hshort, hshort⟩ (.inl hshort)

/-- A character of two bytes, three hundred times. -/
theorem truncate_error_exceeds_limit :
    ∃ result, truncate_error (String.ofList (List.replicate 300 'é')) = some result ∧
      ¬ result.utf8ByteSize ≤ MAX_ERROR_LEN := by
  have hwidth : 'é'.utf8Size = 2 := by decide
  have hlong : MAX_ERROR_LEN < (String.ofList (List.replicate 300 'é')).utf8ByteSize := by
    rw [utf8ByteSize_ofList, utf8Len_replicate, hwidth]
    decide
  have hboundary : is_char_boundary (String.ofList (List.replicate 300 'é')) (MAX_ERROR_LEN - 2) = true := by
    refine is_char_boundary_iff.mpr ⟨List.replicate 255 'é', ⟨List.replicate 45 'é', ?_⟩, ?_⟩
    · rw [List.replicate_append_replicate, String.toList_ofList]
    · rw [utf8Len_replicate, hwidth]
      rfl
  obtain ⟨fit, hfit, hresult⟩ := exists_truncate_error hlong
  have hlate := (cut_too_late_iff hfit).mpr (.inl hboundary)
  refine ⟨_, hresult, ?_⟩
  rw [utf8ByteSize_cut]
  unfold MAX_ERROR_LEN at *
  omega

/-- A slice splits the message after that many bytes. -/
theorem slice_eq_some_iff {message front : String} {stop : Nat} :
    slice_to message stop = some front ↔ (∃ rest, message = front ++ rest) ∧ front.utf8ByteSize = stop := by
  rw [slice_to, Option.map_eq_some_iff]
  constructor
  · rintro ⟨chars, hslice, rfl⟩
    obtain ⟨⟨rest, hrest⟩, hlen⟩ := slice_to_eq_some_iff.mp hslice
    refine ⟨⟨String.ofList rest, ?_⟩, ?_⟩
    · rw [← String.ofList_append, hrest, String.ofList_toList]
    · rw [utf8ByteSize_ofList, hlen]
  · rintro ⟨⟨rest, rfl⟩, hsize⟩
    refine ⟨front.toList, slice_to_eq_some_iff.mpr ⟨⟨rest.toList, String.toList_append.symm⟩, ?_⟩, ?_⟩
    · rw [← utf8ByteSize_ofList, String.ofList_toList, hsize]
    · exact String.ofList_toList

/-- The boundaries are the positions at which no byte continues a character. -/
theorem is_char_boundary_iff_isValid {message : String} {index : Nat} :
    is_char_boundary message index = true ↔ Pos.Raw.IsValid message ⟨index⟩ := by
  simp only [is_char_boundary, Option.isSome_iff_exists, slice_eq_some_iff, Pos.Raw.isValid_iff_exists_append]
  constructor
  · rintro ⟨front, ⟨rest, hrest⟩, rfl⟩
    exact ⟨front, rest, hrest, rfl⟩
  · rintro ⟨front, rest, hrest, hindex⟩
    exact ⟨front, ⟨rest, hrest⟩, (congrArg Pos.Raw.byteIdx hindex).symm⟩

/-- The longest beginning of a message that has at most `limit` bytes and is made
of whole characters. -/
structure LongestFront (limit : Nat) (message front : String) : Prop where
  splits : ∃ rest, message = front ++ rest
  size_le : front.utf8ByteSize ≤ limit
  longest : ∀ other rest, message = other ++ rest → other.utf8ByteSize ≤ limit →
    other.utf8ByteSize ≤ front.utf8ByteSize

theorem longestFront_of_longestFit {limit : Nat} {message : String} {fit : List Char}
    (hfit : LongestFit limit message.toList fit) : LongestFront limit message (String.ofList fit) := by
  have hslice := slice_eq_some_iff.mp (congrArg (Option.map String.ofList)
    (slice_to_eq_some_iff.mpr ⟨hfit.begins, rfl⟩))
  refine ⟨hslice.1, ?_, ?_⟩
  · rw [utf8ByteSize_ofList]
    exact hfit.len_le
  · rintro other rest rfl hother
    rw [← String.ofList_toList (s := other), utf8ByteSize_ofList] at hother ⊢
    rw [utf8ByteSize_ofList]
    have hbegins : other.toList <+: (other ++ rest).toList := ⟨rest.toList, String.toList_append.symm⟩
    exact utf8Len_le_of_prefix (hfit.begins_of_len_le hbegins hother)

/-- A text that was cut is returned as it is, even where the ellipsis takes it
over the limit: it is cut at the same place again. -/
theorem truncate_error_cut {fit : List Char} (hlen : utf8Len fit ≤ MAX_ERROR_LEN - 1) :
    truncate_error (String.ofList fit ++ "…") = some (String.ofList fit ++ "…") := by
  by_cases hlong : MAX_ERROR_LEN < (String.ofList fit ++ "…").utf8ByteSize
  · obtain ⟨again, hagain, hresult⟩ := exists_truncate_error hlong
    rw [utf8ByteSize_cut] at hlong
    have hwidth : '…'.utf8Size = 3 := by decide
    have hchars : (String.ofList fit ++ "…").toList = fit ++ '…' :: [] := by
      rw [String.toList_append, String.toList_ofList]
      rfl
    have hsame : LongestFit (MAX_ERROR_LEN - 1) (fit ++ '…' :: []) fit := by
      refine longestFit_append hlen ?_ []
      rw [hwidth]
      omega
    rw [hchars] at hagain
    rw [hresult, hagain.unique hsame]
  · exact truncate_error_of_short (Nat.not_lt.mp hlong)

/-- What `truncate_error` promises for a message besides the length of its
result. -/
structure CutsSafely (message : String) : Prop where
  unchanged : message.utf8ByteSize ≤ MAX_ERROR_LEN → truncate_error message = some message
  boundary : MAX_ERROR_LEN < message.utf8ByteSize →
    Pos.Raw.IsValid message ⟨prefix_end message⟩ ∧ prefix_end message < message.utf8ByteSize
  cut : MAX_ERROR_LEN < message.utf8ByteSize → ∃ front, slice_to message (prefix_end message) = some front ∧
    LongestFront (MAX_ERROR_LEN - 1) message front ∧ MAX_ERROR_LEN - 4 ≤ front.utf8ByteSize ∧
      truncate_error message = some (front ++ "…")
  idempotent : ∃ result, truncate_error message = some result ∧ truncate_error result = some result

theorem truncate_error_cuts_safely (message : String) : CutsSafely message := by
  obtain ⟨fit, hfit, hend, hslice⟩ := exists_slice message
  have hlen := hfit.len_le
  have hsize : message.utf8ByteSize = utf8Len message.toList := by
    rw [← utf8ByteSize_ofList, String.ofList_toList]
  constructor
  · exact truncate_error_of_short
  · intro hlong
    have hboundary : is_char_boundary message (prefix_end message) = true := by
      rw [is_char_boundary, hslice, Option.isSome_some]
    refine ⟨is_char_boundary_iff_isValid.mp hboundary, ?_⟩
    omega
  · intro hlong
    refine ⟨String.ofList fit, hslice, longestFront_of_longestFit hfit, ?_, ?_⟩
    · rw [utf8ByteSize_ofList]
      have hlimit := hfit.limit_le (by omega)
      unfold MAX_ERROR_LEN at *
      omega
    · rw [truncate_error_of_long hlong, hslice, Option.map_some]
  · by_cases hlong : MAX_ERROR_LEN < message.utf8ByteSize
    · refine ⟨String.ofList fit ++ "…", ?_, truncate_error_cut hlen⟩
      rw [truncate_error_of_long hlong, hslice, Option.map_some]
    · have hshort := truncate_error_of_short (Nat.not_lt.mp hlong)
      exact ⟨message, hshort, hshort⟩

end photon_valence_identity.telemetry
