import Mathlib.Algebra.Group.Nat.Defs
import RowBase.Proofs.Reading
import RowBase.Timestamp.Reader

namespace RowBase

namespace Timestamp

theorem isDigit_of_mem_padded {width n : Nat} {c : Char} (member : c ∈ padded width n) : c.isDigit = true := by
  rcases List.mem_append.mp member with zero | digit
  · rw [List.eq_of_mem_replicate zero]
    rfl
  · exact Nat.isDigit_of_mem_toDigits (by omega) (by omega) digit

theorem padded_ne_nil (width n : Nat) : padded width n ≠ [] := by
  have := @Nat.toDigits_ne_nil n 10
  simp [padded, this]

theorem length_padded {width n : Nat} (filled : 0 < width) (small : n < 10 ^ width) :
    (padded width n).length = width := by
  have short := (Nat.length_toDigits_le_iff (by omega : 1 < 10) filled).mpr small
  simp only [padded, List.length_append, List.length_replicate]
  omega

theorem ofDigitChars_padded (width n : Nat) : Nat.ofDigitChars 10 (padded width n) 0 = n := by
  simp [padded, Nat.ofDigitChars_append]

theorem padded_eq_cons (width n : Nat) : ∃ c cs, padded width n = c :: cs ∧
    (∀ d ∈ c :: cs, d.isDigit = true) ∧ Nat.ofDigitChars 10 (c :: cs) 0 = n := by
  cases chars : padded width n with
  | nil => exact absurd chars (padded_ne_nil width n)
  | cons c cs =>
    refine ⟨c, cs, rfl, fun d member => @isDigit_of_mem_padded width n d (chars ▸ member), ?_⟩
    rw [← chars, ofDigitChars_padded]

def EndsDigits (rest : List Char) : Prop :=
  ∀ c ∈ rest.head?, c.isDigit = false

def Solid (rest : List Char) : Prop :=
  ∀ c ∈ rest.head?, Text.isBlank c = false

theorem trimLeft_of_solid {cs : List Char} (solid : Solid cs) : Text.trimLeft cs = cs := by
  cases cs with
  | nil => rfl
  | cons c cs => exact List.dropWhile_cons_of_neg (by simp [solid c (by simp)])

theorem isBlank_of_isDigit {c : Char} (digit : c.isDigit = true) : Text.isBlank c = false := by
  have bounds : 48 ≤ c.toNat ∧ c.toNat ≤ 57 := Char.isDigit_iff_toNat.mp digit
  simp only [Text.isBlank, Bool.or_eq_false_iff, Bool.and_eq_false_iff, decide_eq_false_iff_not,
    beq_eq_false_iff_ne]
  omega

theorem solid_digits {ds rest : List Char} (digits : ∀ c ∈ ds, c.isDigit = true) (filled : ds ≠ []) :
    Solid (ds ++ rest) := by
  cases ds with
  | nil => exact absurd rfl filled
  | cons d ds =>
    intro c h
    cases h
    exact isBlank_of_isDigit (digits d (by simp))

theorem solid_padded (width n : Nat) (rest : List Char) : Solid (padded width n ++ rest) :=
  solid_digits (fun _ => isDigit_of_mem_padded) (padded_ne_nil width n)

namespace Scanner

theorem numberOf_eq {ds rest : List Char} {n : Nat} (value : Nat.ofDigitChars 10 ds 0 = n)
    (small : n < 2 ^ 63) : numberOf ds rest = .ok (n, rest) := by
  have fits : (n : Int) ≤ Int64.maxValue.toInt := by
    have : Int64.maxValue.toInt = 2 ^ 63 - 1 := rfl
    omega
  rw [numberOf, value, if_pos fits]

theorem number_padded {width n : Nat} (small : n < 2 ^ 63) {rest : List Char} (stops : EndsDigits rest) :
    number (padded width n ++ rest) = .ok (n, rest) := by
  obtain ⟨c, cs, chars, digits, value⟩ := padded_eq_cons width n
  have taken := takeWhile_of_stops digits stops
  have dropped := dropWhile_of_stops digits stops
  rw [chars]
  rw [List.cons_append] at taken dropped ⊢
  simp only [number, digits c (by simp), if_true, taken, dropped]
  exact numberOf_eq value small

theorem shortNumber_padded {width n : Nat} (filled : 0 < width) (small : n < 10 ^ width) (fits : n < 2 ^ 63)
    (rest : List Char) : shortNumber width (padded width n ++ rest) = .ok (n, rest) := by
  obtain ⟨c, cs, chars, digits, value⟩ := padded_eq_cons width n
  have length := length_padded filled small
  rw [chars] at length ⊢
  have taken : ((c :: cs ++ rest).take width).takeWhile Char.isDigit = c :: cs := by
    rw [← length, List.take_left]
    simpa using @takeWhile_of_stops _ _ (c :: cs) [] digits (by simp)
  rw [List.cons_append] at taken ⊢
  simp only [shortNumber, digits c (by simp), if_true, taken]
  rw [← List.cons_append, List.drop_left]
  exact numberOf_eq value fits

theorem part_padded {low high n : Nat} (least : low ≤ n) (greatest : n ≤ high) (small : n < 100)
    (rest : List Char) : part low high (padded 2 n ++ rest) = .ok (n, rest) := by
  have skipped : skipBlanks (padded 2 n ++ rest) = .ok ((), padded 2 n ++ rest) := by
    rw [skipBlanks, trimLeft_of_solid (solid_padded 2 n rest)]
  have read := shortNumber_padded (by omega : 0 < 2) small (by omega) rest
  rw [part, StateT.bind_of_ok _ skipped, StateT.bind_of_ok _ read, if_pos ⟨least, greatest⟩]
  rfl

theorem separator_cons {c : Char} (solid : Text.isBlank c = false) (rest : List Char) :
    separator c (c :: rest) = .ok ((), rest) := by
  have skipped : skipBlanks (c :: rest) = .ok ((), c :: rest) := by
    rw [skipBlanks, trimLeft_of_solid (by simpa [Solid] using solid)]
  rw [separator, StateT.bind_of_ok _ skipped]
  simp [oneOf]

theorem boundedYear_eq {y : Int} (low : firstYear ≤ y) (high : y ≤ lastYear) (rest : List Char) :
    boundedYear y rest = .ok (y, rest) := by
  have least : Int32.minValue.toInt ≤ y := by
    have : Int32.minValue.toInt = -2147483648 := rfl
    simp only [firstYear] at low
    omega
  have greatest : y ≤ Int32.maxValue.toInt := by
    have : Int32.maxValue.toInt = 2147483647 := rfl
    simp only [lastYear] at high
    omega
  rw [boundedYear, if_pos ⟨least, greatest⟩]
  rfl

theorem year_of_isDigit {c : Char} (digit : c.isDigit = true) (cs : List Char) :
    year (c :: cs) = (do let n ← shortNumber 4; boundedYear n) (c :: cs) := by
  have skipped : skipBlanks (c :: cs) = .ok ((), c :: cs) := by
    rw [skipBlanks, trimLeft_of_solid (by simpa [Solid] using isBlank_of_isDigit digit)]
  have minus : c ≠ '-' := by
    intro same
    subst same
    simp at digit
  have plus : c ≠ '+' := by
    intro same
    subst same
    simp at digit
  rw [year, StateT.bind_of_ok _ skipped, StateT.bind_of_ok _ rfl]
  simp [minus, plus]

theorem year_yearText {y : Int} (low : firstYear ≤ y) (high : y ≤ lastYear) {rest : List Char}
    (stops : EndsDigits rest) : year (yearText y ++ rest) = .ok (y, rest) := by
  have bounded := boundedYear_eq low high rest
  simp only [firstYear, lastYear] at low high
  by_cases plain : 0 ≤ y ∧ y ≤ 9999
  · have read := shortNumber_padded (by omega : 0 < 4) (by omega : y.toNat < 10 ^ 4) (by omega) rest
    have value : (y.toNat : Int) = y := by omega
    rw [yearText, if_pos plain]
    obtain ⟨c, cs, chars, digits, -⟩ := padded_eq_cons 4 y.toNat
    rw [chars, List.cons_append] at read ⊢
    rw [year_of_isDigit (digits c (by simp)), StateT.bind_of_ok _ read, value, bounded]
  · have read := @number_padded 4 y.natAbs (by omega) rest stops
    rw [yearText, if_neg plain]
    by_cases below : y < 0
    · have value : -(y.natAbs : Int) = y := by omega
      rw [if_pos below, List.cons_append, year, StateT.bind_of_ok _ rfl, StateT.bind_of_ok _ rfl]
      change (do let n ← number; boundedYear (-(n : Int))) (padded 4 y.natAbs ++ rest) = _
      rw [StateT.bind_of_ok _ read, value, bounded]
    · have value : (y.natAbs : Int) = y := by omega
      rw [if_neg below, List.cons_append, year, StateT.bind_of_ok _ rfl, StateT.bind_of_ok _ rfl]
      change (do let n ← number; boundedYear n) (padded 4 y.natAbs ++ rest) = _
      rw [StateT.bind_of_ok _ read, value, bounded]

theorem fraction_padded {width n scale : Nat} (filled : 0 < width) (small : n < 10 ^ width) (short : width ≤ 9)
    (unit : 10 ^ (9 - width) = scale) {rest : List Char} (stops : EndsDigits rest) :
    fraction ('.' :: padded width n ++ rest) = .ok (n * scale, rest) := by
  obtain ⟨c, cs, chars, digits, value⟩ := padded_eq_cons width n
  have length := length_padded filled small
  have taken := takeWhile_of_stops digits stops
  have dropped := dropWhile_of_stops digits stops
  rw [chars] at length ⊢
  have whole : (c :: cs).take 9 = c :: cs := List.take_of_length_le (by omega)
  simp only [List.cons_append] at taken dropped ⊢
  simp only [fraction, digits c (by simp), if_true, taken, dropped, whole, value, length]
  rw [← unit]
  rfl

theorem fraction_fractionText {ns : Nat} (small : ns < 1000000000) {rest : List Char} (stops : EndsDigits rest)
    (point : rest.head? ≠ some '.') : fraction (fractionText ns ++ rest) = .ok (ns, rest) := by
  by_cases none : ns = 0
  · rw [fractionText, if_pos none, none, List.nil_append]
    cases rest with
    | nil => rfl
    | cons c rest =>
      unfold fraction
      split <;> simp_all
  · rw [fractionText, if_neg none]
    by_cases milli : ns % 1000000 = 0
    · rw [if_pos milli, fraction_padded (by omega) (by omega : ns / 1000000 < 10 ^ 3) (by omega) rfl stops]
      congr 2
      omega
    · rw [if_neg milli]
      by_cases micro : ns % 1000 = 0
      · rw [if_pos micro, fraction_padded (by omega) (by omega : ns / 1000 < 10 ^ 6) (by omega) rfl stops]
        congr 2
        omega
      · rw [if_neg micro, fraction_padded (by omega) (by omega : ns < 10 ^ 9) (by omega) rfl stops]
        congr 2
        omega

theorem twoDigits_padded {limit n : Nat} (low : n < limit) (small : n < 100) (rest : List Char) :
    twoDigits limit (padded 2 n ++ rest) = .ok (n, rest) := by
  have digits : ∀ c ∈ padded 2 n, c.isDigit = true := fun _ => isDigit_of_mem_padded
  have length := length_padded (by omega : 0 < 2) (by omega : n < 10 ^ 2)
  have value := ofDigitChars_padded 2 n
  obtain ⟨c, d, chars⟩ : ∃ c d, padded 2 n = [c, d] := by
    match padded 2 n, length with
    | [c, d], _ => exact ⟨c, d, rfl⟩
  rw [chars] at digits value ⊢
  simp [twoDigits, digits c (by simp), digits d (by simp), value, low]

theorem signedOffset_eq {c : Char} {s : Int} {hours minutes : Nat}
    (signed : ∀ rest, sign (c :: rest) = .ok (s, rest)) (less : hours < 100) (least : minutes < 60) :
    signedOffset (c :: padded 2 hours ++ ':' :: padded 2 minutes) = .ok (s * (60 * hours + minutes), []) := by
  have readHours := twoDigits_padded less less (':' :: padded 2 minutes)
  have readMinutes := twoDigits_padded least (by omega) []
  have skipped : skipColons (':' :: padded 2 minutes) = .ok ((), padded 2 minutes) := by
    obtain ⟨d, ds, chars, digits, -⟩ := padded_eq_cons 2 minutes
    have digit := digits d (by simp)
    have colon : d ≠ ':' := by
      intro same
      subst same
      simp at digit
    simp [skipColons, chars, colon, isBlank_of_isDigit digit]
  rw [List.append_nil] at readMinutes
  rw [List.cons_append, signedOffset, StateT.bind_of_ok _ (signed _), StateT.bind_of_ok _ readHours,
    StateT.bind_of_ok _ skipped, StateT.bind_of_ok _ readMinutes]
  rfl

theorem offset_offsetText {m : Int} (low : -1440 < m) (high : m < 1440) :
    offset (offsetText m) = .ok (m, []) := by
  by_cases utc : m = 0
  · rw [offsetText, if_pos utc, utc]
    rfl
  · have hours : m.natAbs / 60 < 100 := by omega
    have minutes : m.natAbs % 60 < 60 := by omega
    rw [offsetText, if_neg utc]
    by_cases below : m < 0
    · have value : -1 * (60 * ((m.natAbs / 60 : Nat) : Int) + ((m.natAbs % 60 : Nat) : Int)) = m := by omega
      have read := @signedOffset_eq '-' (-1) _ _ (fun _ => rfl) hours minutes
      rw [value] at read
      rw [if_pos below, offset, StateT.bind_of_ok _ rfl, StateT.bind_of_ok _ rfl]
      exact read
    · have value : 1 * (60 * ((m.natAbs / 60 : Nat) : Int) + ((m.natAbs % 60 : Nat) : Int)) = m := by omega
      have read := @signedOffset_eq '+' 1 _ _ (fun _ => rfl) hours minutes
      rw [value] at read
      rw [if_neg below, offset, StateT.bind_of_ok _ rfl, StateT.bind_of_ok _ rfl]
      exact read

theorem head_offsetText (m : Int) : ∀ c ∈ (offsetText m).head?, c.isDigit = false ∧ c ≠ '.' := by
  intro c head
  unfold offsetText at head
  split at head
  · cases head
    decide
  · split at head
    · cases head
      decide
    · cases head
      decide

theorem daysInMonth_le (y : Int) (m : Nat) : daysInMonth y m ≤ 31 := by
  unfold daysInMonth
  split
  · split <;> omega
  · split <;> omega

theorem parts_text {p : Parts} (valid : p.Valid) : Scanner.parts p.text.toList = .ok (p, []) := by
  obtain ⟨date, clock, ⟨behind, ahead⟩, -⟩ := valid
  obtain ⟨firstYear, lastYear, firstMonth, lastMonth, firstDay, lastDay⟩ := date
  obtain ⟨hours, minutes, seconds, nanoseconds⟩ := clock
  have days : p.day ≤ 31 := Nat.le_trans lastDay (daysInMonth_le p.year p.month)
  have stops : EndsDigits (offsetText p.offset) := fun c head => (head_offsetText p.offset c head).1
  have point : (offsetText p.offset).head? ≠ some '.' := fun head => (head_offsetText p.offset '.' head).2 rfl
  have dash (rest : List Char) : EndsDigits ('-' :: rest) := by
    intro c h
    cases h
    rfl
  simp only [Parts.text, String.toList_ofList, List.append_assoc, List.cons_append]
  rw [parts, StateT.bind_of_ok _ (year_yearText firstYear lastYear (dash _)),
    StateT.bind_of_ok _ (separator_cons (by decide) _),
    StateT.bind_of_ok _ (part_padded firstMonth lastMonth (by omega) _),
    StateT.bind_of_ok _ (separator_cons (by decide) _),
    StateT.bind_of_ok _ (part_padded firstDay days (by omega) _), StateT.bind_of_ok _ rfl,
    StateT.bind_of_ok _ (part_padded (by omega) (by omega) (by omega) _),
    StateT.bind_of_ok _ (separator_cons (by decide) _),
    StateT.bind_of_ok _ (part_padded (by omega) (by omega) (by omega) _),
    StateT.bind_of_ok _ (separator_cons (by decide) _),
    StateT.bind_of_ok _ (part_padded (by omega) seconds (by omega) _),
    StateT.bind_of_ok _ (fraction_fractionText nanoseconds stops point),
    StateT.bind_of_ok _ (offset_offsetText behind ahead)]
  rfl

end Scanner

/-- A time is read back from its written form, in whatever year, with whatever fraction and offset. -/
theorem read_text (t : Timestamp) : read t.text = .ok t := by
  have scanned : Scanner.parts.run t.text.toList = .ok (t.parts, []) := Scanner.parts_text t.valid
  simp [read, scanned, bind, Except.bind, Text.trimLeft, t.valid]
  rfl

end Timestamp

end RowBase
