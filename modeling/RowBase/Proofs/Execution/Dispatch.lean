import RowBase.Proofs.Sql.Classification
import RowBase.Storage.Memory

namespace RowBase

namespace Cursor

/-- What call number `n` for the next row gives, counted from zero. -/
def fetch (c : Cursor) : Nat → Option (List Field)
  | 0 => c.next.1
  | n + 1 => c.next.2.fetch n

theorem fetch_eq {c : Cursor} (opened : c.closed = false) (n : Nat) : c.fetch n = c.rows[n]? := by
  induction n generalizing c with
  | zero => cases rows : c.rows <;> simp [fetch, next, opened, rows]
  | succ n ih =>
    cases rows : c.rows with
    | nil =>
      have same : c.next.2 = c := by simp [next, opened, rows]
      rw [fetch, same, ih opened, rows, List.getElem?_nil, List.getElem?_nil]
    | cons row rest =>
      have after : c.next.2 = { c with rows := rest } := by simp [next, opened, rows]
      rw [List.getElem?_cons_succ, fetch, after]
      exact @ih { c with rows := rest } opened

/-- A cursor shows a result: the columns, the fields of one row after the other and then nothing any more, and the
identity of a row that was inserted. -/
def Shows (c : Cursor) : ResultSet → Prop
  | .inserted identity => c.columns = [] ∧ (∀ n, c.fetch n = none) ∧ c.lastInsertId = some identity
  | .selected columns rows =>
    c.columns = columns ∧ (∀ n, c.fetch n = rows[n]?.map (·.fields)) ∧ c.lastInsertId = none

theorem shows_ofResult (r : ResultSet) : (ofResult r).Shows r := by
  cases r with
  | inserted identity =>
    refine ⟨rfl, fun n => ?_, rfl⟩
    rw [fetch_eq rfl]
    exact List.getElem?_nil
  | selected columns rows =>
    refine ⟨rfl, fun n => ?_, rfl⟩
    rw [fetch_eq rfl]
    exact List.getElem?_map

end Cursor

/-- A connection gives what a session gives: the same storage, warnings and error, or a cursor that shows the result. -/
structure Agrees {σ : Type} (session : Outcome σ ResultSet) (connection : Outcome σ Cursor) : Prop where
  store : connection.store = session.store
  warnings : connection.warnings = session.warnings
  failed : ∀ e, connection.result = .error e ↔ session.result = .error e
  shown : ∀ r, session.result = .ok r → ∃ c, connection.result = .ok c ∧ c.Shows r

theorem agrees_ofResult {σ : Type} (o : Outcome σ ResultSet) :
    Agrees o { o with result := o.result.map Cursor.ofResult } where
  store := rfl
  warnings := rfl
  failed e := by cases o.result <;> simp [Except.map]
  shown r given := ⟨.ofResult r, congrArg (Except.map Cursor.ofResult) given, Cursor.shows_ofResult r⟩

namespace Sql

theorem parse_eq_error {sql : String} {t : Token} {r : Reader} (token : Reader.next (.ofText sql) = (t, r))
    (other : ∀ k, t = .keyword k → k ≠ .insert ∧ k ≠ .select ∧ k ≠ .create) :
    Statement.parse sql = .error (.unexpected t.text "INSERT, SELECT or CREATE") := by
  have blamed : Parser.statement (.ofText sql) = .error (.unexpected t.text "INSERT, SELECT or CREATE") := by
    simp only [Parser.statement, bind, StateT.bind, Except.bind, Parser.next, token]
    split
    · exact absurd rfl (other _ rfl).1
    · exact absurd rfl (other _ rfl).2.1
    · exact absurd rfl (other _ rfl).2.2
    · rfl
  simp only [Statement.parse, StateT.run, Parser.wholeStatement, bind, StateT.bind, Except.bind, blamed]
  rfl

theorem parse_of_otherKind {sql : String} (other : ∀ kind ∈ parsedKinds, StatementKind.ofText? sql ≠ some kind) :
    ∃ found, Statement.parse sql = .error (.unexpected found "INSERT, SELECT or CREATE") := by
  obtain ⟨t, rest, token⟩ : ∃ t rest, Reader.next ⟨none, sql.toList⟩ = (t, ⟨none, rest⟩) := ⟨_, _, Grammar.next_eq _⟩
  refine ⟨t.text, parse_eq_error token fun k keyword => ?_⟩
  subst keyword
  obtain ⟨gap, w, text, blank, spelled⟩ := (Grammar.next_eq_iff (by simp)).mp token
  cases Grammar.scans_keyword_iff.mp spelled with
  | keyword spelled stops =>
    have starts (kind : StatementKind) (named : k.name = kind.keyword) : kind ∉ parsedKinds := fun member =>
      other kind member (Grammar.ofText?_of_keyword named text blank spelled stops)
    refine ⟨?_, ?_, ?_⟩
    · rintro rfl
      exact starts .insert rfl (by decide)
    · rintro rfl
      exact starts .select rfl (by decide)
    · rintro rfl
      exact starts .create rfl (by decide)

end Sql

variable {σ : Type} [Storage σ]

/-- The dispatcher agrees with the parser on every text: it knows the kind of every statement that can be parsed, it
passes on what a session would give, and what it does not pass on cannot be parsed. -/
theorem dispatch_agrees_with_parse (s : RowStore) (store : σ) (fresh : Identifier) (sql : String) :
    (∀ statement, Sql.Statement.parse sql = .ok statement →
      statement.kind ∈ [.insert, .select, .create] ∧ StatementKind.ofText? sql = some statement.kind) ∧
    (∀ kind ∈ [.insert, .select, .create], StatementKind.ofText? sql = some kind →
      Agrees (s.execute store fresh sql) (s.query store fresh sql)) ∧
    (StatementKind.ofText? sql ∈ [none, some .update, some .delete] →
      ∃ found, s.execute store fresh sql = ⟨.error (.unexpected found "INSERT, SELECT or CREATE"), store, []⟩) := by
  refine ⟨fun statement parsed => ?_, fun kind member told => ?_, fun unparsed => ?_⟩
  · exact ⟨statement.kind_mem, Sql.Grammar.ofText?_eq_some (Sql.Grammar.spelling_of_parse parsed)⟩
  · rw [RowStore.query_of_kind told member]
    exact agrees_ofResult _
  · have other : ∀ kind ∈ Sql.parsedKinds, StatementKind.ofText? sql ≠ some kind := by
      intro kind member told
      rw [told] at unparsed
      cases kind <;> simp_all [Sql.parsedKinds]
    obtain ⟨found, failed⟩ := Sql.parse_of_otherKind other
    exact ⟨found, by rw [RowStore.execute, failed]⟩

def readings : RowStore :=
  .ofSchema { Database.blank "readings" with tables := [⟨"t", [⟨"n", .int⟩], []⟩] }

def sevenRead : Memory :=
  Memory.empty.insert "t" "a" (Row.encode (.ofFields "t" [.ofValue "n" .int (.int 7)]))

theorem dispatch_agrees_with_parse_select :
    (Sql.Statement.parse "\tselect * from t;" = .ok (.select ⟨"t", .all⟩) ∧
      StatementKind.ofText? "\tselect * from t;" = some .select) ∧
    Agrees (readings.execute sevenRead .zero "\tselect * from t;")
      (readings.query sevenRead .zero "\tselect * from t;") ∧
    StatementKind.ofText? "Update t;" = some .update ∧
      ∃ found, readings.execute sevenRead .zero "Update t;" =
        ⟨.error (.unexpected found "INSERT, SELECT or CREATE"), sevenRead, []⟩ := by
  have parsed : Sql.Statement.parse "\tselect * from t;" = .ok (.select ⟨"t", .all⟩) := by cbv
  have update : StatementKind.ofText? "Update t;" = some .update := by cbv
  have agrees := dispatch_agrees_with_parse readings sevenRead .zero "\tselect * from t;"
  have told := (agrees.1 _ parsed).2
  have unparsed : StatementKind.ofText? "Update t;" ∈ [none, some .update, some .delete] := by simp [update]
  have refused := (dispatch_agrees_with_parse readings sevenRead .zero "Update t;").2.2 unparsed
  exact ⟨⟨parsed, told⟩, agrees.2.1 .select (by simp) told, update, refused⟩

end RowBase
