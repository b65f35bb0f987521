import Mathlib.Data.List.TakeWhile
import RowBase.Proofs.Binary64.Rounding
import RowBase.Proofs.Text.Letters
import RowBase.Proofs.Timestamp.ReadBack

namespace RowBase.Binary64

namespace Decimal

theorem value_shift (n k : Nat) (x : Int) : value ⟨n * 10 ^ k, x - k⟩ = value ⟨n, x⟩ := by
  have power : (10 : ℚ) ^ k ≠ 0 := by positivity
  have exponent : (10 : ℚ) ^ (x - k) = 10 ^ x / 10 ^ k := by rw [zpow_sub₀ (by norm_num), zpow_natCast]
  simp only [value, exponent, Nat.cast_mul, Nat.cast_pow, Nat.cast_ofNat]
  field_simp

def ofDigits (whole fraction : List Char) : Decimal :=
  ⟨Nat.ofDigitChars 10 (whole ++ fraction) 0, -fraction.length⟩

/-- Digits, and a point among them unless none is behind it. -/
structure Writes (whole fraction cs : List Char) : Prop where
  text : cs = if fraction = [] then whole else whole ++ '.' :: fraction
  filled : whole ≠ []
  digits : ∀ c ∈ whole ++ fraction, c.isDigit = true

theorem Writes.exists_cons {whole fraction cs : List Char} (writes : Writes whole fraction cs) :
    ∃ c rest, cs = c :: rest ∧ c.isDigit = true := by
  obtain ⟨rfl, filled, digits⟩ := writes
  cases whole with
  | nil => exact absurd rfl filled
  | cons c whole =>
    have digit := digits c (by simp)
    split
    · exact ⟨c, whole, rfl, digit⟩
    · exact ⟨c, _, rfl, digit⟩

theorem read_of_writes {whole fraction cs : List Char} (writes : Writes whole fraction cs) :
    read cs = some (ofDigits whole fraction) := by
  obtain ⟨rfl, filled, digits⟩ := writes
  have before : ∀ c ∈ whole, c.isDigit = true := fun c member => digits c (by simp [member])
  have behind : ∀ c ∈ fraction, c.isDigit = true := fun c member => digits c (by simp [member])
  by_cases none : fraction = []
  · have taken := List.takeWhile_eq_self_iff.mpr before
    have dropped := List.dropWhile_eq_nil_iff.mpr before
    simp [read, ofDigits, none, taken, dropped, filled]
  · have taken : (whole ++ '.' :: fraction).takeWhile Char.isDigit = whole := takeWhile_of_stops before (by simp)
    have dropped : (whole ++ '.' :: fraction).dropWhile Char.isDigit = '.' :: fraction :=
      dropWhile_of_stops before (by simp)
    have taken' := List.takeWhile_eq_self_iff.mpr behind
    have dropped' := List.dropWhile_eq_nil_iff.mpr behind
    simp [read, ofDigits, none, taken, dropped, taken', dropped', filled]

theorem exists_dropZeros (ds : List Char) : ∃ zeros, ds = dropZeros ds ++ List.replicate zeros '0' := by
  have each : ∀ c ∈ ds.reverse.takeWhile (· == '0'), c = '0' := by
    intro c member
    simpa using List.all_eq_true.mp List.all_takeWhile c member
  have parts := congrArg List.reverse (List.takeWhile_append_dropWhile (p := (· == '0')) (l := ds.reverse))
  rw [List.reverse_append, List.reverse_reverse, List.eq_replicate_of_mem each, List.reverse_replicate] at parts
  exact ⟨_, parts.symm⟩

theorem writes_whole (digits e : Nat) : ∃ whole, Writes whole [] (positional ⟨digits, .ofNat e⟩) ∧
    (ofDigits whole []).value = value ⟨digits, .ofNat e⟩ := by
  let whole := Nat.toDigits 10 digits ++ List.replicate e '0'
  have each : ∀ c ∈ whole ++ [], c.isDigit = true := by
    intro c member
    rw [List.append_nil] at member
    rcases List.mem_append.mp member with digit | zero
    · exact Nat.isDigit_of_mem_toDigits (by omega) (by omega) digit
    · rw [List.eq_of_mem_replicate zero]
      rfl
  have number : Nat.ofDigitChars 10 (whole ++ []) 0 = digits * 10 ^ e := by
    simp [whole, Nat.ofDigitChars_append, Nat.ofDigitChars_replicate_zero, Nat.mul_comm]
  have shifted := value_shift digits e e
  rw [Int.sub_self] at shifted
  refine ⟨whole, ⟨rfl, by simp [whole, Nat.toDigits_ne_nil], each⟩, ?_⟩
  rw [ofDigits, number]
  exact shifted

theorem writes_fraction (digits e : Nat) : ∃ whole fraction,
    Writes whole fraction (positional ⟨digits, .negSucc e⟩) ∧
    (ofDigits whole fraction).value = value ⟨digits, .negSucc e⟩ := by
  let padded := Timestamp.padded (e + 2) digits
  let whole := padded.take (padded.length - (e + 1))
  let tail := padded.drop (padded.length - (e + 1))
  obtain ⟨zeros, split⟩ := exists_dropZeros tail
  have joined : padded = whole ++ dropZeros tail ++ List.replicate zeros '0' := by
    rw [List.append_assoc, ← split, List.take_append_drop]
  have enough : e + 2 ≤ padded.length := by
    simp only [padded, Timestamp.padded, List.length_append, List.length_replicate]
    omega
  have filled : whole ≠ [] := by
    rw [← List.length_pos_iff, List.length_take]
    omega
  have each : ∀ c ∈ whole ++ dropZeros tail, c.isDigit = true := by
    intro c member
    apply @Timestamp.isDigit_of_mem_padded (e + 2) digits
    change c ∈ padded
    rw [joined]
    exact List.mem_append_left _ member
  have count : (dropZeros tail).length + zeros = e + 1 := by
    have length := congrArg List.length split
    rw [List.length_append, List.length_replicate, List.length_drop] at length
    omega
  -- The zeros that are not written are powers of ten that the exponent makes up for.
  have number : Nat.ofDigitChars 10 (whole ++ dropZeros tail) 0 * 10 ^ zeros = digits := by
    have number : Nat.ofDigitChars 10 padded 0 = digits := Timestamp.ofDigitChars_padded (e + 2) digits
    rwa [joined, Nat.ofDigitChars_append, Nat.ofDigitChars_replicate_zero, Nat.mul_comm] at number
  have exponent : -((dropZeros tail).length : Int) - zeros = .negSucc e := by omega
  refine ⟨whole, dropZeros tail, ⟨rfl, filled, each⟩, ?_⟩
  rw [ofDigits, ← value_shift _ zeros, number, exponent]

theorem writes_positional (d : Decimal) :
    ∃ whole fraction, Writes whole fraction d.positional ∧ (ofDigits whole fraction).value = d.value := by
  rcases d with ⟨digits, e | e⟩
  · obtain ⟨whole, writes, same⟩ := writes_whole digits e
    exact ⟨whole, [], writes, same⟩
  · exact writes_fraction digits e

theorem nearest_shortened {code tail dropped : Nat} {d : Decimal} (found : shortened code tail dropped = some d) :
    d.nearest = code := by
  unfold shortened at found
  dsimp only at found
  split at found
  · rename_i below
    cases found
    exact below.1
  · split at found
    · rename_i above
      cases found
      exact above
    · cases found

theorem nearest_shortestFrom {code tail : Nat} (exact : nearest ⟨tail, -1074⟩ = code) (dropped : Nat) :
    (shortestFrom code tail dropped).nearest = code := by
  induction dropped with
  | zero => exact exact
  | succ dropped ih =>
    rw [shortestFrom]
    cases found : shortened code tail (dropped + 1) with
    | none => exact ih
    | some d => exact nearest_shortened found

theorem nearest_exact {c : Nat} (pos : 0 < c) (finite : c ≤ infinityCode) :
    nearest ⟨units c * Nat.pow 5 1074, -1074⟩ = c := by
  have one : Nat.pow 5 1074 * unitsOfOne = 10 ^ (1073 + 1) := by decide +kernel
  have same : units c * Nat.pow 5 1074 * unitsOfOne = units c * 10 ^ (1073 + 1) := by rw [Nat.mul_assoc, one]
  have filled : 0 < 10 ^ (1073 + 1) := by decide +kernel
  have exponent : (-1074 : Int) = .negSucc 1073 := rfl
  rw [exponent, nearest_negSucc, nearestCode_congr filled unitsOfOne_pos same]
  exact nearestCode_units pos finite

theorem nearest_shortest {c : Nat} (pos : 0 < c) (finite : c ≤ infinityCode) : (shortest c).nearest = c :=
  nearest_shortestFrom (nearest_exact pos finite) _

end Decimal

theorem ofWord?_of_isDigit {c : Char} (digit : c.isDigit = true) (negative : Bool) (cs : List Char) :
    ofWord? negative (c :: cs) = none := by
  have small := Text.toLower_of_isDigit digit
  have other (w : String) (letter : w.toList.head?.all (!·.isDigit) = true) :
      String.ofList ((c :: cs).map Char.toLower) ≠ w := by
    rintro rfl
    simp [small, digit] at letter
  simp only [ofWord?, other "nan" (by decide), other "inf" (by decide), other "infinity" (by decide), or_self, if_false]

theorem ofUnsigned?_of_writes {whole fraction cs : List Char} (writes : Decimal.Writes whole fraction cs)
    (negative : Bool) : ofUnsigned? negative cs = some (ofCode negative (Decimal.ofDigits whole fraction).nearest) := by
  obtain ⟨c, rest, rfl, digit⟩ := writes.exists_cons
  rw [ofUnsigned?, ofWord?_of_isDigit digit, Decimal.read_of_writes writes]
  rfl

theorem ofUnsigned?_magnitudeText {c : Nat} (numeric : c ≤ infinityCode) (negative : Bool) :
    ofUnsigned? negative (magnitudeText c) = some (ofCode negative c) := by
  by_cases zero : c = 0
  · have writes : Decimal.Writes ['0'] [] (magnitudeText c) := ⟨by rw [zero]; rfl, by simp, by simp⟩
    rw [ofUnsigned?_of_writes writes, zero]
    rfl
  · rw [magnitudeText, if_neg zero]
    by_cases infinite : c = infinityCode
    · rw [if_pos infinite, infinite]
      cases negative <;> rfl
    · obtain ⟨whole, fraction, writes, same⟩ := (Decimal.shortest c).writes_positional
      have nearest := Decimal.nearest_shortest (Nat.pos_of_ne_zero zero) numeric
      rw [if_neg infinite, ofUnsigned?_of_writes writes, Decimal.nearest_congr same, nearest]

theorem magnitudeText_unsigned (c : Nat) : ∃ d rest, magnitudeText c = d :: rest ∧ d ≠ '-' ∧ d ≠ '+' := by
  unfold magnitudeText
  split
  · exact ⟨'0', [], rfl, by decide, by decide⟩
  · split
    · exact ⟨'i', ['n', 'f'], rfl, by decide, by decide⟩
    · obtain ⟨whole, fraction, writes, -⟩ := (Decimal.shortest c).writes_positional
      obtain ⟨d, rest, cons, digit⟩ := writes.exists_cons
      exact ⟨d, rest, cons, fun same => by simp [same] at digit, fun same => by simp [same] at digit⟩

theorem ofText?_of_unsigned {d : Char} (minus : d ≠ '-') (plus : d ≠ '+') (rest : List Char) :
    ofText? (.ofList (d :: rest)) = ofUnsigned? false (d :: rest) := by
  unfold ofText?
  rw [String.toList_ofList]
  split
  · rename_i same
    cases same
    exact absurd rfl minus
  · rename_i same
    cases same
    exact absurd rfl plus
  · rfl

theorem ofCode_code (x : Binary64) : ofCode x.isNegative x.code = x := by
  rcases x with ⟨bits⟩
  have bound := bits.toNat_lt
  have sign : (if isNegative ⟨bits⟩ then signBit + code ⟨bits⟩ else code ⟨bits⟩) = bits.toNat := by
    unfold isNegative code signBit
    split
    · rename_i negative
      have negative : 0x8000000000000000 ≤ bits.toNat := by simpa using negative
      dsimp only
      omega
    · rename_i positive
      have positive : bits.toNat < 0x8000000000000000 := by simpa using positive
      exact Nat.mod_eq_of_lt positive
  rw [ofCode, sign, UInt64.ofNat_toNat]

theorem text_of_isNaN {x : Binary64} (nan : x.isNaN = true) : x.text = "NaN" := by
  rw [text, if_pos nan]

/-- Every number but NaN is read back from its text, to the bit. -/
theorem ofText?_text {x : Binary64} (number : x.isNaN = false) : ofText? x.text = some x := by
  have numeric : x.code ≤ infinityCode := by simpa [isNaN] using number
  rw [text, if_neg (by simp [number])]
  cases negative : x.isNegative with
  | true =>
    have read := ofUnsigned?_magnitudeText numeric true
    rw [← negative, ofCode_code] at read
    simpa [ofText?, negative] using read
  | false =>
    have read := ofUnsigned?_magnitudeText numeric false
    obtain ⟨d, rest, cons, minus, plus⟩ := magnitudeText_unsigned x.code
    rw [cons] at read ⊢
    rw [if_neg (by simp), ofText?_of_unsigned minus plus, read, ← negative, ofCode_code]

theorem ofText?_text_of_isNaN {x : Binary64} (nan : x.isNaN = true) : ofText? x.text = some (ofCode false nanCode) := by
  rw [text_of_isNaN nan]
  rfl

theorem isNaN_nan : (ofCode false nanCode).isNaN = true := by
  decide

theorem text_eq_text_iff {x y : Binary64} : x.text = y.text ↔ x = y ∨ x.isNaN = true ∧ y.isNaN = true := by
  constructor
  · intro same
    -- Both sides of the same text are read as one number, which is NaN if the text is.
    cases nan : x.isNaN with
    | true =>
      refine .inr ⟨rfl, ?_⟩
      cases nan' : y.isNaN with
      | true => rfl
      | false =>
        have read := ofText?_text nan'
        rw [← same, ofText?_text_of_isNaN nan, Option.some.injEq] at read
        rw [← nan', ← read, isNaN_nan]
    | false =>
      have read := ofText?_text nan
      cases nan' : y.isNaN with
      | true =>
        rw [same, ofText?_text_of_isNaN nan', Option.some.injEq] at read
        rw [← read, isNaN_nan] at nan
        cases nan
      | false =>
        rw [same, ofText?_text nan', Option.some.injEq] at read
        exact .inl read.symm
  · intro h
    rcases h with rfl | ⟨nan, nan'⟩
    · rfl
    · rw [text_of_isNaN nan, text_of_isNaN nan']

end RowBase.Binary64
