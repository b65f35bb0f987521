import RowBase.Error
import RowBase.Sql.Token

namespace RowBase.Sql

structure Reader where
  /-- The token that was handed back, read next. -/
  waiting : Option Token
  rest : List Char
  deriving DecidableEq, Repr

namespace Reader

def ofText (sql : String) : Reader :=
  ⟨none, sql.toList⟩

def size (r : Reader) : Nat :=
  r.rest.length + if r.waiting.isSome then 1 else 0

def scan (r : Reader) : Token × Reader :=
  match r.waiting with
  | some t => (t, ⟨none, r.rest⟩)
  | none => ((Token.scan r.rest).1, ⟨none, (Token.scan r.rest).2⟩)

def scanValue (r : Reader) : Except Error (Token × Reader) :=
  match r.waiting with
  | some _ => .error .tokenBeforeLiteral
  | none => .ok ((Token.scanValue r.rest).1, ⟨none, (Token.scanValue r.rest).2⟩)

def handBack (t : Token) (r : Reader) : Except Error Reader :=
  match r.waiting with
  | some _ => .error .tokenWaiting
  | none => .ok ⟨some t, r.rest⟩

/-- The next token in statement mode that is not blank. One blank token is all that can stand before it, as
blanks are read in one piece. -/
def next (r : Reader) : Token × Reader :=
  match r.scan with
  | (.blank _, r') => r'.scan
  | tr => tr

def nextValue (r : Reader) : Except Error (Token × Reader) := do
  match ← r.scanValue with
  | (.blank _, r') => r'.scanValue
  | tr => return tr

theorem size_scan_le (r : Reader) : r.scan.2.size ≤ r.size := by
  rcases r with ⟨w, rest⟩
  cases w with
  | some t => simp [scan, size]
  | none =>
    cases rest with
    | nil => simp [scan, size, Token.scan]
    | cons c rest =>
      have := Token.length_scan_lt c rest
      simp only [scan, size, Option.isSome_none, Bool.false_eq_true, if_false]
      omega

theorem size_scan_lt {r : Reader} (h : r.scan.1 ≠ .endOfText) : r.scan.2.size < r.size := by
  rcases r with ⟨w, rest⟩
  cases w with
  | some t => simp [scan, size]
  | none =>
    cases rest with
    | nil => simp [scan, Token.scan] at h
    | cons c rest =>
      have := Token.length_scan_lt c rest
      simp only [scan, size, Option.isSome_none, Bool.false_eq_true, if_false]
      omega

theorem size_next_le (r : Reader) : r.next.2.size ≤ r.size := by
  have first := size_scan_le r
  simp only [next]
  split
  · rename_i r' h
    have second := size_scan_le r'
    rw [h] at first
    exact Nat.le_trans second first
  · exact first

theorem size_next_lt {r : Reader} (h : r.next.1 ≠ .endOfText) : r.next.2.size < r.size := by
  simp only [next] at h ⊢
  split at h
  · rename_i s r' h₁
    have first : r.scan.2.size < r.size := size_scan_lt (by simp [h₁])
    have second := size_scan_le r'
    rw [h₁] at first
    exact Nat.lt_of_le_of_lt second first
  · exact size_scan_lt h

theorem size_scanValue_le {r r' : Reader} {t : Token} (h : r.scanValue = .ok (t, r')) : r'.size ≤ r.size := by
  rcases r with ⟨w, rest⟩
  cases w with
  | some _ => simp [scanValue] at h
  | none =>
    simp only [scanValue, Except.ok.injEq, Prod.mk.injEq] at h
    rw [← h.2]
    cases rest with
    | nil => simp [size, Token.scanValue]
    | cons c rest =>
      have := Token.length_scanValue_lt c rest
      simp only [size, Option.isSome_none, Bool.false_eq_true, if_false]
      omega

theorem size_nextValue_le {r r' : Reader} {t : Token} (h : r.nextValue = .ok (t, r')) : r'.size ≤ r.size := by
  simp only [nextValue, bind, Except.bind] at h
  cases h₁ : r.scanValue with
  | error e => simp [h₁] at h
  | ok tr =>
    rcases tr with ⟨t₁, r₁⟩
    have first := size_scanValue_le h₁
    simp only [h₁] at h
    split at h
    · rename_i h₂
      simp only [Prod.mk.injEq] at h₂
      rw [h₂.2] at first
      exact Nat.le_trans (size_scanValue_le h) first
    · simp only [pure, Except.pure, Except.ok.injEq, Prod.mk.injEq] at h
      rw [← h.2]
      exact first

end Reader

end RowBase.Sql
