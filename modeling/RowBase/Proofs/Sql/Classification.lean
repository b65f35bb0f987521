import RowBase.Connection
import RowBase.Proofs.Sql.Parsing

namespace RowBase

namespace Sql

def Statement.kind : Statement → StatementKind
  | insert _ => .insert
  | select _ => .select
  | createTable _ => .create

def parsedKinds : List StatementKind :=
  [.insert, .select, .create]

theorem Statement.kind_mem (s : Statement) : s.kind ∈ parsedKinds := by
  cases s <;> simp [Statement.kind, parsedKinds]

namespace Grammar

theorem name_firstKeyword (s : Statement) : s.firstKeyword.name = s.kind.keyword := by
  cases s <;> rfl

theorem isBlank_of_mem_blanks {c : Char} (blank : c ∈ blanks) : Text.isBlank c = true := by
  simp only [blanks, List.mem_cons, List.not_mem_nil, or_false] at blank
  rcases blank with rfl | rfl | rfl | rfl <;> rfl

theorem IsLetter.isBlank {c : Char} (letter : IsLetter c) : Text.isBlank c = false := by
  have bounds := letter.toNat_bounds
  simp only [Text.isBlank, Bool.or_eq_false_iff, Bool.and_eq_false_iff, decide_eq_false_iff_not,
    beq_eq_false_iff_ne]
  omega

end Grammar

end Sql

/-- A text begins with blanks and the keyword of a kind, in any case of its letters. -/
structure StatementKind.Begins (kind : StatementKind) (gap w rest text : List Char) : Prop where
  split : text = gap ++ w ++ rest
  blank : ∀ c ∈ gap, Text.isBlank c = true
  spelled : w.map Char.toUpper = kind.keyword.toList
  stops : Sql.Grammar.Stops Sql.Grammar.IsLetter rest

namespace StatementKind.Begins

open Sql.Grammar

variable {kind : StatementKind} {gap w rest text : List Char}

theorem isLetter (begins : kind.Begins gap w rest text) {c : Char} (member : c ∈ w) : IsLetter c := by
  have capitals : kind.keyword.toList.all (fun d => 65 ≤ d.toNat ∧ d.toNat ≤ 90) = true := by cases kind <;> decide
  have image : c.toUpper ∈ kind.keyword.toList := begins.spelled ▸ List.mem_map_of_mem member
  exact isLetter_of_toUpper (by simpa using List.all_eq_true.mp capitals _ image)

theorem filled (begins : kind.Begins gap w rest text) : w ≠ [] := by
  rintro rfl
  have empty := begins.spelled
  cases kind <;> exact absurd empty (by decide)

theorem trimLeft_eq (begins : kind.Begins gap w rest text) : Text.trimLeft text = w ++ rest := by
  rw [begins.split, Text.trimLeft, List.append_assoc]
  apply dropWhile_of_stops begins.blank
  obtain ⟨c, cs, rfl⟩ := List.exists_cons_of_ne_nil begins.filled
  intro d h
  cases h
  exact (begins.isLetter (by simp)).isBlank

theorem letters_eq (begins : kind.Begins gap w rest text) : (Text.trimLeft text).takeWhile Char.isAlpha = w := by
  rw [begins.trimLeft_eq]
  apply takeWhile_of_stops
  · exact fun c member => startsWord_iff.mpr (begins.isLetter member)
  · intro c member
    rw [← Bool.not_eq_true]
    exact fun letter => begins.stops c member (startsWord_iff.mp letter)

theorem unique {gap' w' rest' : List Char} (begins : kind.Begins gap w rest text)
    (begins' : kind.Begins gap' w' rest' text) : gap = gap' ∧ w = w' ∧ rest = rest' := by
  have words : w = w' := begins.letters_eq.symm.trans begins'.letters_eq
  subst words
  have trimmed := begins.trimLeft_eq.symm.trans begins'.trimLeft_eq
  have rests : rest = rest' := List.append_cancel_left trimmed
  subst rests
  have texts := begins.split.symm.trans begins'.split
  exact ⟨List.append_cancel_right (List.append_cancel_right texts), rfl, rfl⟩

end StatementKind.Begins

theorem StatementKind.ofText?_eq_some_iff {sql : String} {kind : StatementKind} :
    ofText? sql = some kind ↔ ∃ gap w rest, kind.Begins gap w rest sql.toList := by
  constructor
  · intro told
    let tail := Text.trimLeft sql.toList
    let w := tail.takeWhile Char.isAlpha
    have letters : ∀ c ∈ w, Sql.Grammar.IsLetter c := fun c member =>
      Sql.Grammar.startsWord_iff.mp (List.all_eq_true.mp List.all_takeWhile c member)
    have ascii : ∀ c ∈ w, c.toNat < 128 := fun c member => (Sql.Grammar.IsWordChar.ascii (.inl (letters c member)))
    have found : kind.keyword = Text.capitals (.ofList w) := by simpa [ofText?] using List.find?_some told
    rw [Text.capitals_ofList ascii] at found
    refine ⟨sql.toList.takeWhile Text.isBlank, w, tail.dropWhile Char.isAlpha, ?_, ?_, ?_, fun c member => ?_⟩
    · rw [List.append_assoc, List.takeWhile_append_dropWhile]
      exact List.takeWhile_append_dropWhile.symm
    · exact fun c member => List.all_eq_true.mp List.all_takeWhile c member
    · rw [found, String.toList_ofList]
    · have other := stops_dropWhile Char.isAlpha tail c member
      rw [← Sql.Grammar.startsWord_iff]
      exact Bool.not_eq_true _ ▸ other
  · intro h
    obtain ⟨gap, w, rest, begins⟩ := h
    have ascii : ∀ c ∈ w, c.toNat < 128 := fun c member => (Sql.Grammar.IsWordChar.ascii (.inl (begins.isLetter member)))
    rw [ofText?, begins.letters_eq, Text.capitals_ofList ascii, begins.spelled, String.ofList_toList]
    cases kind <;> decide

namespace Sql

namespace Grammar

theorem ofText?_of_keyword {sql : String} {kind : StatementKind} {k : Keyword} (named : k.name = kind.keyword)
    {gap w rest : List Char} (text : sql.toList = gap ++ w ++ rest) (blank : IsGap gap) (spelled : IsKeyword k w)
    (stops : Stops IsWordChar rest) : StatementKind.ofText? sql = some kind := by
  refine StatementKind.ofText?_eq_some_iff.mpr ⟨gap, w, rest, text, ?_, ?_, ?_⟩
  · exact fun c member => isBlank_of_mem_blanks (blank c member)
  · rw [← named]
    exact spelled
  · exact fun c member letter => stops c member (.inl letter)

theorem ofText?_of_opens {sql : String} {kind : StatementKind} {k : Keyword} (named : k.name = kind.keyword)
    {ls : List Lexeme} {rest : List Char} (opens : Opens EndsPlain (.keyword k :: ls) sql.toList rest) :
    StatementKind.ofText? sql = some kind := by
  obtain ⟨mid, first, -⟩ := opens_cons_iff.mp opens
  obtain ⟨gap, w, text, blank, spelled⟩ := opens_singleton_iff.mp first
  cases spelled with
  | keyword spelled stops => exact ofText?_of_keyword named text blank spelled stops

theorem ofText?_eq_some {sql : String} {s : Statement} (spelling : Spelling EndsPlain s sql.toList) :
    StatementKind.ofText? sql = some s.kind := by
  obtain ⟨ls, _, sentence, opens, -⟩ := spelling
  obtain ⟨ms, rfl⟩ := sentence.opens
  exact ofText?_of_opens (name_firstKeyword s) opens

end Grammar

end Sql

namespace RowStore

variable {σ : Type} [Storage σ]

theorem query_of_kind {s : RowStore} {sql : String} {kind : StatementKind} (told : StatementKind.ofText? sql = some kind)
    (parsed : kind ∈ Sql.parsedKinds) (store : σ) (fresh : Identifier) :
    s.query store fresh sql =
      { s.execute store fresh sql with result := (s.execute store fresh sql).result.map .ofResult } := by
  simp only [Sql.parsedKinds, List.mem_cons, List.not_mem_nil, or_false] at parsed
  rcases parsed with rfl | rfl | rfl <;> simp only [query, told]

theorem query_of_parse {s : RowStore} {sql : String} {statement : Sql.Statement}
    (parsed : Sql.Statement.parse sql = .ok statement) (store : σ) (fresh : Identifier) :
    s.query store fresh sql =
      { s.execute store fresh sql with result := (s.execute store fresh sql).result.map .ofResult } :=
  query_of_kind (Sql.Grammar.ofText?_eq_some (Sql.Grammar.spelling_of_parse parsed)) statement.kind_mem store fresh

theorem query_of_parse_error {s : RowStore} {sql : String} {e : Error} (failed : Sql.Statement.parse sql = .error e)
    (fresh : Identifier) : ∃ e', ∀ store : σ, s.query store fresh sql = ⟨.error e', store, []⟩ := by
  unfold query
  cases StatementKind.ofText? sql with
  | none => exact ⟨_, fun _ => rfl⟩
  | some kind =>
    cases kind with
    | update | delete => exact ⟨_, fun _ => rfl⟩
    | insert | select | create => exact ⟨e, fun _ => by simp [execute, failed, Except.map]⟩

end RowStore

end RowBase
