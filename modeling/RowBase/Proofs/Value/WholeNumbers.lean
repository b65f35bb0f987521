import Mathlib.Algebra.Group.Int.Defs
import RowBase.Proofs.Text.Numbers
import RowBase.Value.Literal

namespace RowBase.Value

theorem int64?_eq_some_iff {s : String} {i : Int64} : int64? s = some i ↔ Text.WritesInteger s.toList i.toInt := by
  rw [← Text.signedNumber?_eq_some_iff, int64?]
  cases read : Text.signedNumber? s.toList with
  | none => simp
  | some n =>
    simp only [Option.some.injEq, Option.ite_none_right_eq_some]
    constructor
    · intro h
      obtain ⟨⟨least, greatest⟩, rfl⟩ := h
      exact (Int64.toInt_ofInt_of_le least (by rw [Int64.toInt_maxValue] at greatest; omega)).symm
    · rintro rfl
      exact ⟨⟨Int64.minValue_le_toInt i, Int64.toInt_le i⟩, Int64.ofInt_toInt i⟩

structure Writes64 (s : String) (n : Int) : Prop where
  writes : Text.WritesInteger s.toList n
  least : -2 ^ 63 ≤ n
  greatest : n ≤ 2 ^ 63 - 1

theorem exists_int64?_iff {s : String} : (∃ i, int64? s = some i) ↔ ∃ n, Writes64 s n := by
  constructor
  · intro h
    obtain ⟨i, read⟩ := h
    exact ⟨i.toInt, int64?_eq_some_iff.mp read, Int64.minValue_le_toInt i, Int64.toInt_le i⟩
  · intro h
    obtain ⟨n, writes, least, greatest⟩ := h
    refine ⟨.ofInt n, int64?_eq_some_iff.mpr ?_⟩
    rwa [Int64.toInt_ofInt_of_le least (by omega)]

theorem ofLiteral_int_eq_ok_iff {s : String} {v : Value} :
    ofLiteral .int s = .ok v ↔ ∃ i, v = int i ∧ int64? s = some i := by
  simp only [ofLiteral]
  cases int64? s <;> simp [eq_comm]

theorem ofLiteral_int_eq_error_iff {s : String} {e : Error} :
    ofLiteral .int s = .error e ↔ e = .typeMismatch .int ∧ int64? s = none := by
  simp only [ofLiteral]
  cases int64? s <;> simp [eq_comm]

/-- A literal stands for the number that it writes, and for none if that has more than 64 bits or if it writes no number
at all. Nothing is cut off or replaced by a bound. -/
theorem whole_numbers_read_exactly (s : String) :
    (∀ v, ofLiteral .int s = .ok v ↔ ∃ i : Int64, v = int i ∧ Text.WritesInteger s.toList i.toInt) ∧
    ((∃ v, ofLiteral .int s = .ok v) ↔ ∃ n, Writes64 s n) ∧
    ∀ e, ofLiteral .int s = .error e ↔ e = .typeMismatch .int ∧ ¬∃ n, Writes64 s n := by
  refine ⟨fun v => ?_, ?_, fun e => ?_⟩
  · simp only [ofLiteral_int_eq_ok_iff, int64?_eq_some_iff]
  · rw [← exists_int64?_iff]
    simp only [ofLiteral_int_eq_ok_iff]
    constructor
    · intro h
      obtain ⟨v, i, -, read⟩ := h
      exact ⟨i, read⟩
    · intro h
      obtain ⟨i, read⟩ := h
      exact ⟨int i, i, rfl, read⟩
  · rw [ofLiteral_int_eq_error_iff, ← exists_int64?_iff]
    simp only [not_exists, Option.eq_none_iff_forall_ne_some]

example : ofLiteral .int "-0009223372036854775808" = .ok (.int Int64.minValue) := by
  decide +kernel

example : ofLiteral .int "+9223372036854775808" = .error (.typeMismatch .int) := by
  decide +kernel

end RowBase.Value
