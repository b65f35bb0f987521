import Mathlib.Tactic.ByContra
import RowBase.Proofs.Sql.Scanning

namespace RowBase.Sql

namespace Token

theorem scanIn_of_separator (m : Mode) {c : Char} (separator : isSeparator c = true) (cs : List Char) :
    scanIn m (c :: cs) = (blank (.ofList (c :: cs.takeWhile isSeparator)), cs.dropWhile isSeparator) := by
  cases m <;> simp [scanIn, scan, scanValue, separator, span]

theorem scanIn_ne_blank (m : Mode) {c : Char} (other : isSeparator c = false) (cs : List Char) (s : String) :
    (scanIn m (c :: cs)).1 ≠ blank s := by
  have solid : c ∉ Grammar.blanks := Grammar.isSeparator_eq_false_iff.mp other
  cases m with
  | statement =>
    obtain ⟨w, -, spelled⟩ := Grammar.scans_scan solid cs
    exact spelled.ne_blank s
  | value => exact Grammar.scanValue_ne_blank solid s

theorem quotedLiteral_suffix (cs : List Char) : (quotedLiteral cs).2 <:+ cs := by
  unfold quotedLiteral
  split
  · rename_i s after read
    obtain ⟨split, -⟩ := Grammar.doubled_of_quotedText read
    exact ⟨Grammar.doubled s ++ ['\''], by simp [split]⟩
  · exact List.nil_suffix

theorem span_suffix {p : Char → Bool} {c : Char} (first : p c = true) (cs : List Char) :
    (span p (c :: cs)).2 <:+ cs := by
  rw [span, List.dropWhile_cons_of_pos first]
  exact List.dropWhile_suffix p

theorem scanIn_suffix (m : Mode) (c : Char) (cs : List Char) : (scanIn m (c :: cs)).2 <:+ cs := by
  by_cases separator : isSeparator c = true
  · rw [scanIn_of_separator m separator]
    exact List.dropWhile_suffix isSeparator
  · rw [Bool.not_eq_true] at separator
    cases m with
    | statement =>
      simp only [scanIn, scan, separator, Bool.false_eq_true, if_false]
      split
      · rename_i letter
        exact span_suffix (Grammar.continuesWord_iff.mpr (.inl (Grammar.startsWord_iff.mp letter))) cs
      · exact List.suffix_refl cs
    | value =>
      simp only [scanIn, scanValue, separator, Bool.false_eq_true, if_false]
      split
      · exact List.suffix_refl cs
      · rename_i mark
        split
        · exact quotedLiteral_suffix cs
        · refine span_suffix ?_ cs
          simp only [not_or] at mark
          simp [endsLiteral, separator, mark]

theorem scanIn_ne_endOfText (m : Mode) (c : Char) (cs : List Char) : (scanIn m (c :: cs)).1 ≠ endOfText := by
  by_cases separator : isSeparator c = true
  · simp [scanIn_of_separator m separator]
  · rw [Bool.not_eq_true] at separator
    cases m with
    | statement =>
      obtain ⟨w, -, spelled⟩ := Grammar.scans_scan (Grammar.isSeparator_eq_false_iff.mp separator) cs
      exact spelled.ne_endOfText
    | value =>
      simp only [scanIn, scanValue, separator, Bool.false_eq_true, if_false]
      split
      · rename_i mark
        rcases mark with rfl | rfl | rfl <;> simp [ofSymbol]
      · split
        · rw [quotedLiteral]
          split <;> simp
        · simp

theorem scanIn_endOfText_iff (m : Mode) (cs : List Char) : (scanIn m cs).1 = endOfText ↔ cs = [] := by
  cases cs with
  | nil => cases m <;> simp [scanIn, scan, scanValue]
  | cons c cs => simp [scanIn_ne_endOfText m c cs]

theorem scanIn_nil (m : Mode) : scanIn m [] = (endOfText, []) := by
  cases m <;> rfl

theorem scanIn_of_blank {m : Mode} {cs : List Char} {s : String} (first : (scanIn m cs).1 = blank s) (m' : Mode)
    (s' : String) : (scanIn m' (scanIn m cs).2).1 ≠ blank s' := by
  cases cs with
  | nil => simp [scanIn_nil] at first
  | cons c cs =>
    by_cases separator : isSeparator c = true
    · rw [scanIn_of_separator m separator]
      have stops := stops_dropWhile isSeparator cs
      cases after : cs.dropWhile isSeparator with
      | nil => simp [scanIn_nil]
      | cons d ds => exact scanIn_ne_blank m' (stops d (by simp [after])) ds s'
    · rw [Bool.not_eq_true] at separator
      exact absurd first (scanIn_ne_blank m separator cs s)

theorem length_tokens_le (cs : List Char) : (tokens cs).length ≤ cs.length := by
  fun_induction tokens cs with
  | case1 => simp
  | case2 cs t rest found ih =>
    have shorter := (next_eq_some found).2
    simp only [List.length_cons]
    omega

theorem length_streamFrom_le (mode : Nat → Mode) (i : Nat) (cs : List Char) :
    (streamFrom mode i cs).length ≤ cs.length + 1 := by
  fun_induction streamFrom mode i cs with
  | case1 => simp
  | case2 i c rest t after found ih =>
    have shorter := length_scanIn_lt (mode i) c rest
    rw [found] at shorter
    simp only [List.length_cons] at shorter ⊢
    omega

end Token

/-- The readers that reading a text comes by: tokens are read without the blank before them, and the last one read in
statement mode may be handed back. -/
inductive Reached (sql : String) : Reader → Prop
  | start : Reached sql (.ofText sql)
  | next {r : Reader} (before : Reached sql r) : Reached sql r.next.2
  | nextValue {r r' : Reader} {t : Token} (before : Reached sql r) (read : r.nextValue = .ok (t, r')) : Reached sql r'
  | handBack {r r' : Reader} (before : Reached sql r) (handed : r.next.2.handBack r.next.1 = .ok r') : Reached sql r'

namespace Reader

def IsSolid (r : Reader) : Prop :=
  ∀ s, r.waiting ≠ some (.blank s)

theorem scan_waiting (r : Reader) : r.scan.2.waiting = none := by
  unfold scan
  split <;> rfl

theorem next_waiting (r : Reader) : r.next.2.waiting = none := by
  unfold next
  split
  · exact scan_waiting _
  · exact scan_waiting r

theorem nextValue_waiting {r r' : Reader} {t : Token} (read : r.nextValue = .ok (t, r')) : r'.waiting = none := by
  rcases r with ⟨w, cs⟩
  cases w with
  | some => simp [nextValue, scanValue, bind, Except.bind] at read
  | none =>
    rw [Grammar.nextValue_eq, Except.ok.injEq, Prod.mk.injEq] at read
    rw [← read.2]

theorem next_ne_blank {r : Reader} (solid : r.IsSolid) (s : String) : r.next.1 ≠ .blank s := by
  rcases r with ⟨w, cs⟩
  cases w with
  | some t =>
    have other (s : String) : t ≠ .blank s := fun same => solid s (congrArg some same)
    simp only [next, scan]
    split
    · rename_i found
      exact absurd (congrArg Prod.fst found) (other _)
    · exact other s
  | none =>
    rw [Grammar.next_eq]
    have stops := stops_dropWhile isSeparator cs
    cases after : cs.dropWhile isSeparator with
    | nil => simp [Token.scan]
    | cons c ds => exact Token.scanIn_ne_blank .statement (stops c (by simp [after])) ds s

theorem nextValue_ne_blank {r r' : Reader} {t : Token} (read : r.nextValue = .ok (t, r')) (s : String) :
    t ≠ .blank s := by
  rcases r with ⟨w, cs⟩
  cases w with
  | some => simp [nextValue, scanValue, bind, Except.bind] at read
  | none =>
    rw [Grammar.nextValue_eq, Except.ok.injEq, Prod.mk.injEq] at read
    rw [← read.1]
    have stops := stops_dropWhile isSeparator cs
    cases after : cs.dropWhile isSeparator with
    | nil => simp [Token.scanValue]
    | cons c ds => exact Token.scanIn_ne_blank .value (stops c (by simp [after])) ds s

end Reader

theorem Reached.isSolid {sql : String} {r : Reader} (reached : Reached sql r) : r.IsSolid := by
  induction reached with
  | start => simp [Reader.IsSolid, Reader.ofText]
  | next => simp [Reader.IsSolid, Reader.next_waiting]
  | nextValue _ read => simp [Reader.IsSolid, Reader.nextValue_waiting read]
  | @handBack r r' _ handed solid =>
    have other := Reader.next_ne_blank solid
    simp only [Reader.handBack, Reader.next_waiting, Except.ok.injEq] at handed
    subst handed
    simpa [Reader.IsSolid] using other

/-- A call of the scanner: a scan in one of the modes, or a step of the iteration in statement mode. -/
inductive ScanCall
  | scan (m : Mode)
  | next

namespace ScanCall

def serve : ScanCall → List Char → Token × List Char
  | scan m, cs => Token.scanIn m cs
  | next, cs => (Token.next cs).map (·.getD .endOfText) id

def mode : ScanCall → Mode
  | scan m => m
  | next => .statement

theorem serve_eq (call : ScanCall) (cs : List Char) : call.serve cs = Token.scanIn call.mode cs := by
  cases call with
  | scan m => rfl
  | next =>
    simp only [serve, mode, Token.next, Token.scanIn]
    split <;> simp_all

/-- The text that is left before each call, the first of them being `calls 0`. -/
def left (calls : Nat → ScanCall) (cs : List Char) : Nat → List Char
  | 0 => cs
  | n + 1 => ((calls n).serve (left calls cs n)).2

def answer (calls : Nat → ScanCall) (cs : List Char) (n : Nat) : Token :=
  ((calls n).serve (left calls cs n)).1

section Runs

variable {calls : Nat → ScanCall} {cs : List Char} {n : Nat}

theorem left_succ : left calls cs (n + 1) = (Token.scanIn (calls n).mode (left calls cs n)).2 := by
  rw [left, ScanCall.serve_eq]

theorem answer_eq : answer calls cs n = (Token.scanIn (calls n).mode (left calls cs n)).1 := by
  rw [answer, ScanCall.serve_eq]

theorem answer_endOfText_iff : answer calls cs n = .endOfText ↔ left calls cs n = [] := by
  rw [answer_eq, Token.scanIn_endOfText_iff]

theorem left_split (more : answer calls cs n ≠ .endOfText) :
    ∃ w, w ≠ [] ∧ left calls cs n = w ++ left calls cs (n + 1) := by
  rw [Ne, answer_endOfText_iff] at more
  rw [left_succ]
  cases here : left calls cs n with
  | nil => exact absurd here more
  | cons c ds =>
    obtain ⟨w, split⟩ := Token.scanIn_suffix (calls n).mode c ds
    exact ⟨c :: w, by simp, by rw [List.cons_append, split]⟩

theorem left_of_end (ended : left calls cs n = []) : left calls cs (n + 1) = [] := by
  rw [left_succ, ended, Token.scanIn_nil]

theorem left_of_le {m : Nat} (later : n ≤ m) (ended : left calls cs n = []) : left calls cs m = [] := by
  induction later with
  | refl => exact ended
  | step _ ih => exact left_of_end ih

theorem length_left_le (more : ∀ m < n, answer calls cs m ≠ .endOfText) : (left calls cs n).length + n ≤ cs.length := by
  induction n with
  | zero => simp [left]
  | succ n ih =>
    have before := ih fun m earlier => more m (by omega)
    obtain ⟨w, filled, split⟩ := left_split (more n (by omega))
    have taken := List.length_pos_iff.mpr filled
    rw [split, List.length_append] at before
    omega

theorem end_met (calls : Nat → ScanCall) (cs : List Char) : ∃ n ≤ cs.length, answer calls cs n = .endOfText := by
  by_contra never
  have more : ∀ m < cs.length + 1, answer calls cs m ≠ .endOfText := fun m early ended =>
    never ⟨m, by omega, ended⟩
  have := length_left_le more
  omega

end Runs

/-- Every call but those at the end of the text takes characters off it, the end is met after no more tokens than there
are characters and stays met, and no two calls in a row give blank tokens; so the tokens that a parser comes by, which
are read past one blank token, are not blank. -/
theorem scans_make_progress (calls : Nat → ScanCall) (sql : String) :
    (∀ n, answer calls sql.toList n ≠ .endOfText →
      ∃ w, w ≠ [] ∧ left calls sql.toList n = w ++ left calls sql.toList (n + 1)) ∧
    (∀ n, answer calls sql.toList n = .endOfText ↔ left calls sql.toList n = []) ∧
    (∀ n m, n ≤ m → answer calls sql.toList n = .endOfText → answer calls sql.toList m = .endOfText) ∧
    (∃ n ≤ sql.toList.length, answer calls sql.toList n = .endOfText) ∧
    (Token.tokens sql.toList).length ≤ sql.toList.length ∧
    (∀ mode, (Token.stream mode sql.toList).length ≤ sql.toList.length + 1) ∧
    (∀ n s s', answer calls sql.toList n = .blank s → answer calls sql.toList (n + 1) ≠ .blank s') ∧
    ∀ r, Reached sql r →
      (∀ s, r.next.1 ≠ .blank s) ∧ ∀ t r', r.nextValue = .ok (t, r') → ∀ s, t ≠ .blank s := by
  refine ⟨fun n => left_split, fun n => answer_endOfText_iff, ?_, end_met calls _, Token.length_tokens_le _, ?_, ?_, ?_⟩
  · intro n m later ended
    rw [answer_endOfText_iff] at ended ⊢
    exact left_of_le later ended
  · intro mode
    exact Token.length_streamFrom_le mode 0 _
  · intro n s s' first
    rw [answer_eq] at first ⊢
    rw [left_succ]
    exact Token.scanIn_of_blank first _ s'
  · intro r reached
    exact ⟨Reader.next_ne_blank reached.isSolid, fun _ _ read => Reader.nextValue_ne_blank read⟩

def oneLiteral (n : Nat) : ScanCall :=
  if n = 2 then .scan .value else .next

theorem scans_make_progress_oneLiteral :
    answer oneLiteral "x 'it''s'\t; ".toList 1 = .blank " " ∧
    (∀ s, answer oneLiteral "x 'it''s'\t; ".toList 2 ≠ .blank s) ∧
    answer oneLiteral "x 'it''s'\t; ".toList 2 = .value "it's" ∧
    (∃ w, w ≠ [] ∧
      left oneLiteral "x 'it''s'\t; ".toList 2 = w ++ left oneLiteral "x 'it''s'\t; ".toList 3) ∧
    answer oneLiteral "x 'it''s'\t; ".toList 6 = .endOfText ∧
    answer oneLiteral "x 'it''s'\t; ".toList 9 = .endOfText ∧
    ∀ s, (Reader.ofText "x 'it''s'\t; ").next.2.next.1 ≠ .blank s := by
  obtain ⟨consumes, -, stays, -, -, -, apart, solid⟩ := scans_make_progress oneLiteral "x 'it''s'\t; "
  have blank : answer oneLiteral "x 'it''s'\t; ".toList 1 = .blank " " := by decide +kernel
  have literal : answer oneLiteral "x 'it''s'\t; ".toList 2 = .value "it's" := by decide +kernel
  have ended : answer oneLiteral "x 'it''s'\t; ".toList 6 = .endOfText := by decide +kernel
  refine ⟨blank, ?_, literal, ?_, ended, stays 6 9 (by decide) ended, (solid _ (.next .start)).1⟩
  · exact fun s => apart 1 " " s blank
  · exact consumes 2 (by rw [literal]; simp)

end ScanCall

end RowBase.Sql
