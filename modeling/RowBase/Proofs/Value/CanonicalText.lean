import RowBase.Proofs.Text.Numbers
import RowBase.Proofs.Timestamp.Rfc3339
import RowBase.Value.Literal

namespace RowBase

namespace Value

theorem int64?_text (i : Int64) : int64? (int i).text = some i := by
  have range : Int64.minValue.toInt ≤ i.toInt ∧ i.toInt ≤ Int64.maxValue.toInt :=
    ⟨Int64.minValue_le_toInt i, Int64.toInt_le i⟩
  simp only [int64?, text, String.toList_ofList, Text.signedNumber?_numberText, range, and_self, if_true,
    Int64.ofInt_toInt]

theorem ofLiteral_time_eq_ok_iff {literal : String} {v : Value} :
    ofLiteral .time literal = .ok v ↔ ∃ t, v = time t ∧ Timestamp.ofLiteral? literal = some t := by
  simp only [ofLiteral]
  cases read : Timestamp.ofLiteral? literal with
  | none => simp
  | some t => simp [eq_comm]

/-- Times of the years from 0 to 9999 and 64-bit numbers are read back from their canonical text, whatever the
fraction, the offset or the leap second. A literal is accepted for a time only if it is RFC 3339 and the canonical
text of that time, so no two literals stand for the same date, clock and offset. -/
theorem canonical_text_inverts_literals :
    (∀ t : Timestamp, 0 ≤ t.parts.year → t.parts.year ≤ 9999 → ofLiteral .time (time t).text = .ok (time t)) ∧
    (∀ i : Int64, ofLiteral .int (int i).text = .ok (int i)) ∧
    (∀ (literal : String) (v : Value), ofLiteral .time literal = .ok v ↔
      ∃ t, v = time t ∧ Timestamp.Rfc3339 t.parts literal.toList ∧ v.text = literal) ∧
    (∀ (literal literal' : String) (t t' : Timestamp), ofLiteral .time literal = .ok (time t) →
      ofLiteral .time literal' = .ok (time t') → t.parts = t'.parts → literal = literal') := by
  -- Times are read leniently, but the written form of the time that was read has to be the literal.
  have accepted (literal : String) (v : Value) : ofLiteral .time literal = .ok v ↔
      ∃ t, v = time t ∧ Timestamp.Rfc3339 t.parts literal.toList ∧ v.text = literal := by
    rw [ofLiteral_time_eq_ok_iff]
    apply exists_congr
    intro t
    rw [Timestamp.ofLiteral?_eq_some_iff_rfc3339]
    apply and_congr_right
    rintro rfl
    rfl
  refine ⟨fun t first last => ?_, fun i => ?_, accepted, fun literal literal' t t' read read' same => ?_⟩
  · exact (accepted _ _).mpr ⟨t, rfl, Timestamp.rfc3339_text first last, rfl⟩
  · simp only [ofLiteral, int64?_text, Option.map_some]
  · obtain ⟨_, _, _, canonical⟩ := (accepted _ _).mp read
    obtain ⟨_, _, _, canonical'⟩ := (accepted _ _).mp read'
    rw [← canonical, ← canonical', text, text, Timestamp.text, Timestamp.text, same]

theorem canonical_text_inverts_leap_second :
    ∃ t : Timestamp, t.parts = ⟨2016, 12, 31, 23, 59, 60, 1, -90⟩ ∧
      ofLiteral .time "2016-12-31T23:59:60.000000001-01:30" = .ok (time t) ∧
      (∀ literal t', ofLiteral .time literal = .ok (time t') → t'.parts = t.parts →
        literal = "2016-12-31T23:59:60.000000001-01:30") ∧
      ofLiteral .int "-9223372036854775808" = .ok (int Int64.minValue) := by
  obtain ⟨times, numbers, -, unique⟩ := canonical_text_inverts_literals
  have valid : Timestamp.Parts.Valid ⟨2016, 12, 31, 23, 59, 60, 1, -90⟩ := by decide
  have written : (time ⟨_, valid⟩).text = "2016-12-31T23:59:60.000000001-01:30" := by decide +revert +kernel
  have least : (int Int64.minValue).text = "-9223372036854775808" := by decide +kernel
  have read := times ⟨_, valid⟩ (by simp) (by simp)
  have number := numbers Int64.minValue
  rw [written] at read
  rw [least] at number
  exact ⟨⟨_, valid⟩, rfl, read, fun literal t' read' same => unique literal _ t' _ read' read same, number⟩

end Value

end RowBase
