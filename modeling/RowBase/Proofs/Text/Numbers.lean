import Mathlib.Data.List.Induction
import RowBase.Text.Number

namespace RowBase.Text

def IsDigitOf (c : Char) (d : Nat) : Prop :=
  d < 10 ∧ c.toNat = '0'.toNat + d

theorem isDigit_iff_exists {c : Char} : c.isDigit = true ↔ ∃ d, IsDigitOf c d := by
  have zero : '0'.toNat = 48 := rfl
  have nine : '9'.toNat = 57 := rfl
  simp only [Char.isDigit_iff_toNat, IsDigitOf, zero, nine]
  constructor
  · intro bounds
    exact ⟨c.toNat - 48, by omega, by omega⟩
  · intro h
    obtain ⟨d, small, code⟩ := h
    omega

/-- Digits write a number: each one more is worth itself, and all before it ten times as much as without it. -/
inductive WritesNatural : List Char → Nat → Prop
  | digit {c : Char} {d : Nat} (digit : IsDigitOf c d) : WritesNatural [c] d
  | more {cs : List Char} {n : Nat} {c : Char} {d : Nat} (before : WritesNatural cs n) (digit : IsDigitOf c d) :
      WritesNatural (cs ++ [c]) (10 * n + d)

inductive WritesInteger : List Char → Int → Prop
  | bare {cs : List Char} {n : Nat} (digits : WritesNatural cs n) : WritesInteger cs n
  | plus {cs : List Char} {n : Nat} (digits : WritesNatural cs n) : WritesInteger ('+' :: cs) n
  | minus {cs : List Char} {n : Nat} (digits : WritesNatural cs n) : WritesInteger ('-' :: cs) (-n)

theorem ofDigitChars_concat {c : Char} {d : Nat} (digit : IsDigitOf c d) (cs : List Char) :
    Nat.ofDigitChars 10 (cs ++ [c]) 0 = 10 * Nat.ofDigitChars 10 cs 0 + d := by
  obtain ⟨-, code⟩ := digit
  rw [Nat.ofDigitChars_append, Nat.ofDigitChars_cons, Nat.ofDigitChars_nil, code, Nat.add_sub_cancel_left]

theorem WritesNatural.number?_eq {cs : List Char} {n : Nat} (writes : WritesNatural cs n) : number? cs = some n := by
  have digits : cs ≠ [] ∧ cs.all Char.isDigit = true ∧ Nat.ofDigitChars 10 cs 0 = n := by
    induction writes with
    | @digit c d digit =>
      have value := ofDigitChars_concat digit []
      exact ⟨by simp, by simpa using isDigit_iff_exists.mpr ⟨d, digit⟩, by simpa using value⟩
    | @more cs n c d _ digit ih =>
      obtain ⟨-, all, value⟩ := ih
      refine ⟨by simp, ?_, by rw [ofDigitChars_concat digit, value]⟩
      simpa [List.all_append, all] using isDigit_iff_exists.mpr ⟨d, digit⟩
  obtain ⟨filled, all, rfl⟩ := digits
  rw [number?, if_pos ⟨filled, all⟩]

theorem writesNatural_of_digits {cs : List Char} (filled : cs ≠ []) (digits : ∀ c ∈ cs, c.isDigit = true) :
    WritesNatural cs (Nat.ofDigitChars 10 cs 0) := by
  induction cs using List.reverseRecOn with
  | nil => exact absurd rfl filled
  | append_singleton cs c ih =>
    obtain ⟨d, digit⟩ := isDigit_iff_exists.mp (digits c (by simp))
    rw [ofDigitChars_concat digit]
    by_cases first : cs = []
    · subst first
      simpa using WritesNatural.digit digit
    · exact .more (ih first fun c member => digits c (by simp [member])) digit

theorem number?_eq_some_iff {cs : List Char} {n : Nat} : number? cs = some n ↔ WritesNatural cs n := by
  refine ⟨fun read => ?_, WritesNatural.number?_eq⟩
  unfold number? at read
  split at read
  · rename_i digits
    cases read
    exact writesNatural_of_digits digits.1 (List.all_eq_true.mp digits.2)
  · cases read

theorem WritesNatural.exists_cons {cs : List Char} {n : Nat} (writes : WritesNatural cs n) :
    ∃ c rest, cs = c :: rest ∧ c.isDigit = true := by
  induction writes with
  | @digit c d digit => exact ⟨c, [], rfl, isDigit_iff_exists.mpr ⟨d, digit⟩⟩
  | more _ _ ih =>
    obtain ⟨c, rest, rfl, digit⟩ := ih
    exact ⟨c, _, rfl, digit⟩

theorem number?_toDigits (n : Nat) : number? (Nat.toDigits 10 n) = some n := by
  have filled := @Nat.toDigits_ne_nil n 10
  have digits : (Nat.toDigits 10 n).all Char.isDigit = true :=
    List.all_eq_true.mpr fun c member => Nat.isDigit_of_mem_toDigits (by omega) (by omega) member
  rw [number?, if_pos ⟨filled, digits⟩, Nat.ofDigitChars_ten_toDigits]

theorem signedNumber?_of_isDigit {c : Char} (digit : c.isDigit = true) (cs : List Char) :
    signedNumber? (c :: cs) = (number? (c :: cs)).map fun n => (n : Int) := by
  unfold signedNumber?
  split
  · rename_i same
    cases same
    cases digit
  · rename_i same
    cases same
    cases digit
  · rfl

theorem signedNumber?_numberText (i : Int) : signedNumber? (numberText i) = some i := by
  have read := number?_toDigits i.natAbs
  rw [numberText]
  by_cases below : i < 0
  · have value : -(i.natAbs : Int) = i := by omega
    rw [if_pos below, signedNumber?, read]
    exact congrArg some value
  · have value : (i.natAbs : Int) = i := by omega
    rw [if_neg below]
    cases chars : Nat.toDigits 10 i.natAbs with
    | nil => exact absurd chars Nat.toDigits_ne_nil
    | cons c cs =>
      have digit : c.isDigit = true :=
        @Nat.isDigit_of_mem_toDigits 10 i.natAbs c (by omega) (by omega) (by simp [chars])
      rw [signedNumber?_of_isDigit digit, ← chars, read]
      exact congrArg some value

theorem map_number?_eq_some_iff {cs : List Char} {f : Int → Int} {i : Int} :
    (number? cs : Option Int).map f = some i ↔ ∃ n : Nat, WritesNatural cs n ∧ f n = i := by
  simp only [← number?_eq_some_iff]
  cases number? cs <;> simp

theorem signedNumber?_eq_some_iff {cs : List Char} {i : Int} : signedNumber? cs = some i ↔ WritesInteger cs i := by
  constructor
  · intro read
    unfold signedNumber? at read
    split at read
    all_goals obtain ⟨n, writes, rfl⟩ := map_number?_eq_some_iff.mp read
    · exact .minus writes
    · exact .plus writes
    · exact .bare writes
  · intro writes
    cases writes with
    | bare writes =>
      obtain ⟨c, rest, rfl, digit⟩ := writes.exists_cons
      rw [signedNumber?_of_isDigit digit, writes.number?_eq]
      rfl
    | plus writes => exact map_number?_eq_some_iff.mpr ⟨_, writes, rfl⟩
    | minus writes => exact map_number?_eq_some_iff.mpr ⟨_, writes, rfl⟩

end RowBase.Text
