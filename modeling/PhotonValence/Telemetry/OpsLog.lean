import PhotonValence.Telemetry.Truncate

namespace photon_valence_identity.telemetry

/-- The members of a JSON object whose values are all strings. -/
abbrev Fields := List (String × String)

/-- There are no fields where `truncate_error` panics. -/
def ops_log_fields (component operation message topic subscription error : String) : Option Fields :=
  (truncate_error error).map fun error =>
    [("component", component), ("operation", operation), ("message", message), ("topic", topic),
      ("subscription", subscription), ("error", error)]

/-- The event that `log_ops` hands to the ops log: its name and its fields. -/
def log_ops (component operation message topic subscription error : String) : Option (String × Fields) :=
  (ops_log_fields component operation message topic subscription error).map fun fields => ("photon_ops_log", fields)

/-- What is kept of an error takes no more than the limit and the part of the
ellipsis that may go over it. -/
theorem exists_truncated (error : String) :
    ∃ kept, truncate_error error = some kept ∧ kept.utf8ByteSize ≤ MAX_ERROR_LEN + 2 := by
  by_cases hlong : MAX_ERROR_LEN < error.utf8ByteSize
  · obtain ⟨fit, hfit, hresult⟩ := exists_truncate_error hlong
    refine ⟨_, hresult, ?_⟩
    have hlen := hfit.len_le
    rw [utf8ByteSize_cut]
    unfold MAX_ERROR_LEN at *
    omega
  · have hshort := Nat.not_lt.mp hlong
    exact ⟨error, truncate_error_of_short hshort, Nat.le_add_right_of_le hshort⟩

/-- Every call writes its row, with what is kept of the error. -/
theorem exists_log_ops (component operation message topic subscription error : String) :
    ∃ kept, truncate_error error = some kept ∧ kept.utf8ByteSize ≤ MAX_ERROR_LEN + 2 ∧
      log_ops component operation message topic subscription error = some ("photon_ops_log",
        [("component", component), ("operation", operation), ("message", message), ("topic", topic),
          ("subscription", subscription), ("error", kept)]) := by
  obtain ⟨kept, hkept, hsize⟩ := exists_truncated error
  refine ⟨kept, hkept, hsize, ?_⟩
  simp only [log_ops, ops_log_fields, hkept, Option.map_some]

end photon_valence_identity.telemetry
