import RowBase.Proofs.Timestamp.ReadBack

namespace RowBase.Timestamp

structure WritesNumber (width n : Nat) (cs : List Char) : Prop where
  digits : ∀ c ∈ cs, c.isDigit = true
  length : cs.length = width
  value : Nat.ofDigitChars 10 cs 0 = n

/-- A fraction of a second, in nanoseconds: none, or a point and digits, of which those after the ninth do not count. -/
inductive WritesFraction : Nat → List Char → Prop
  | none : WritesFraction 0 []
  | digits {ds : List Char} (filled : ds ≠ []) (digits : ∀ d ∈ ds, d.isDigit = true) :
      WritesFraction (Nat.ofDigitChars 10 ((ds ++ List.replicate 9 '0').take 9) 0) ('.' :: ds)

inductive WritesOffset : Int → List Char → Prop
  | utc {c : Char} (letter : c = 'Z' ∨ c = 'z') : WritesOffset 0 [c]
  | ahead {h m : Nat} {hours minutes : List Char} (first : WritesNumber 2 h hours) (last : WritesNumber 2 m minutes)
      (day : h < 24) (hour : m < 60) : WritesOffset (60 * h + m) ('+' :: hours ++ ':' :: minutes)
  | behind {h m : Nat} {hours minutes : List Char} (first : WritesNumber 2 h hours) (last : WritesNumber 2 m minutes)
      (day : h < 24) (hour : m < 60) : WritesOffset (-(60 * h + m)) ('-' :: hours ++ ':' :: minutes)

/-- The characters write these parts. Whether the parts are in range is not said here. -/
inductive Rfc3339 (p : Parts) : List Char → Prop
  | mk {n : Nat} {separator : Char} {year month day hour minute second fraction offset : List Char}
      (plain : p.year = n) (years : WritesNumber 4 n year) (months : WritesNumber 2 p.month month)
      (days : WritesNumber 2 p.day day) (separated : separator = 'T' ∨ separator = 't' ∨ separator = ' ')
      (hours : WritesNumber 2 p.hour hour) (minutes : WritesNumber 2 p.minute minute)
      (seconds : WritesNumber 2 p.second second) (fractions : WritesFraction p.nanosecond fraction)
      (offsets : WritesOffset p.offset offset) :
      Rfc3339 p (year ++ '-' :: month ++ '-' :: day ++ separator :: hour ++ ':' :: minute ++ ':' :: second ++
        fraction ++ offset)

theorem ofDigitChars_lt {cs : List Char} (digits : ∀ c ∈ cs, c.isDigit = true) :
    Nat.ofDigitChars 10 cs 0 < 10 ^ cs.length := by
  induction cs with
  | nil => simp
  | cons c cs ih =>
    have others := ih fun d member => digits d (by simp [member])
    have bounds : 48 ≤ c.toNat ∧ c.toNat ≤ 57 := Char.isDigit_iff_toNat.mp (digits c (by simp))
    have zero : '0'.toNat = 48 := rfl
    rw [Nat.ofDigitChars_cons, Nat.ofDigitChars_eq_ofDigitChars_zero, List.length_cons, Nat.pow_succ, zero]
    have most : 10 * 0 + (c.toNat - 48) ≤ 9 := by omega
    calc 10 ^ cs.length * (10 * 0 + (c.toNat - 48)) + Nat.ofDigitChars 10 cs 0
        < 10 ^ cs.length * 9 + 10 ^ cs.length := Nat.add_lt_add_of_le_of_lt (Nat.mul_le_mul_left _ most) others
      _ = 10 ^ cs.length * 10 := by omega

theorem WritesNumber.lt {width n : Nat} {cs : List Char} (writes : WritesNumber width n cs) : n < 10 ^ width := by
  rw [← writes.length, ← writes.value]
  exact ofDigitChars_lt writes.digits

theorem writes_padded {width n : Nat} (filled : 0 < width) (small : n < 10 ^ width) :
    WritesNumber width n (padded width n) where
  digits _ := isDigit_of_mem_padded
  length := length_padded filled small
  value := ofDigitChars_padded width n

theorem writesFraction_padded {width n ns : Nat} (filled : 0 < width) (small : n < 10 ^ width) (short : width ≤ 9)
    (value : n * 10 ^ (9 - width) = ns) : WritesFraction ns ('.' :: padded width n) := by
  have read : Nat.ofDigitChars 10 ((padded width n ++ List.replicate 9 '0').take 9) 0 = ns := by
    have length := length_padded filled small
    have zeros : min (9 - width) 9 = 9 - width := by omega
    rw [List.take_append, List.take_of_length_le (by omega), length, List.take_replicate, Nat.ofDigitChars_append,
      ofDigitChars_padded, Nat.ofDigitChars_replicate_zero, zeros, Nat.mul_comm, value]
  rw [← read]
  exact .digits (padded_ne_nil width n) fun _ => isDigit_of_mem_padded

theorem writes_fractionText {ns : Nat} (small : ns < 1000000000) : WritesFraction ns (fractionText ns) := by
  by_cases none : ns = 0
  · rw [fractionText, if_pos none, none]
    exact .none
  · rw [fractionText, if_neg none]
    by_cases milli : ns % 1000000 = 0
    · rw [if_pos milli]
      exact writesFraction_padded (by omega) (by omega) (by omega) (by omega)
    · rw [if_neg milli]
      by_cases micro : ns % 1000 = 0
      · rw [if_pos micro]
        exact writesFraction_padded (by omega) (by omega) (by omega) (by omega)
      · rw [if_neg micro]
        exact writesFraction_padded (by omega) (by omega) (by omega) (by omega)

theorem writes_offsetText {m : Int} (low : -1440 < m) (high : m < 1440) : WritesOffset m (offsetText m) := by
  by_cases utc : m = 0
  · rw [offsetText, if_pos utc, utc]
    exact .utc (.inl rfl)
  · have hours := writes_padded (by omega : 0 < 2) (by omega : m.natAbs / 60 < 10 ^ 2)
    have minutes := writes_padded (by omega : 0 < 2) (by omega : m.natAbs % 60 < 10 ^ 2)
    rw [offsetText, if_neg utc]
    by_cases below : m < 0
    · have value : -(60 * ((m.natAbs / 60 : Nat) : Int) + ((m.natAbs % 60 : Nat) : Int)) = m := by omega
      have writes := WritesOffset.behind hours minutes (by omega) (by omega)
      rw [value] at writes
      rwa [if_pos below]
    · have value : 60 * ((m.natAbs / 60 : Nat) : Int) + ((m.natAbs % 60 : Nat) : Int) = m := by omega
      have writes := WritesOffset.ahead hours minutes (by omega) (by omega)
      rw [value] at writes
      rwa [if_neg below]

theorem Rfc3339.year_bounds {p : Parts} {cs : List Char} (written : Rfc3339 p cs) : 0 ≤ p.year ∧ p.year ≤ 9999 := by
  cases written with
  | mk plain years =>
    have small := years.lt
    omega

theorem rfc3339_text {t : Timestamp} (first : 0 ≤ t.parts.year) (last : t.parts.year ≤ 9999) :
    Rfc3339 t.parts t.text.toList := by
  obtain ⟨⟨-, -, -, lastMonth, -, lastDay⟩, ⟨hours, minutes, seconds, nanoseconds⟩, ⟨behind, ahead⟩, -⟩ := t.valid
  have days := Scanner.daysInMonth_le t.parts.year t.parts.month
  have year := writes_padded (by omega : 0 < 4) (by omega : t.parts.year.toNat < 10 ^ 4)
  have two {n : Nat} (small : n < 100) := writes_padded (by omega : 0 < 2) (by omega : n < 10 ^ 2)
  have whole := Rfc3339.mk (by omega) year (two (by omega)) (two (by omega)) (.inl rfl) (two (by omega))
    (two (by omega)) (two (by omega)) (writes_fractionText nanoseconds) (writes_offsetText behind ahead)
  rw [text, Parts.text, yearText, if_pos ⟨first, last⟩, String.toList_ofList]
  exact whole

theorem ofLiteral?_eq_some_iff {s : String} {t : Timestamp} :
    ofLiteral? s = some t ↔ t.text = s ∧ 0 ≤ t.parts.year ∧ t.parts.year ≤ 9999 := by
  constructor
  · intro accepted
    unfold ofLiteral? at accepted
    split at accepted
    · split at accepted
      · cases accepted
        assumption
      · cases accepted
    · cases accepted
  · rintro ⟨rfl, plain⟩
    rw [ofLiteral?, read_text]
    exact if_pos ⟨rfl, plain⟩

theorem ofLiteral?_eq_some_iff_rfc3339 {s : String} {t : Timestamp} :
    ofLiteral? s = some t ↔ Rfc3339 t.parts s.toList ∧ t.text = s := by
  rw [ofLiteral?_eq_some_iff]
  constructor
  · rintro ⟨rfl, first, last⟩
    exact ⟨rfc3339_text first last, rfl⟩
  · rintro ⟨written, rfl⟩
    exact ⟨rfl, written.year_bounds⟩

end RowBase.Timestamp
