import RowBase.Proofs.Execution.Coercion
import RowBase.Proofs.Execution.InsertedRows
import RowBase.Proofs.Storage.NameChecks

namespace RowBase

inductive Table.KeyFault (t : Table) (fields : List Field) : Error → Prop
  | null {k : Constraint} {f : Field} (key : t.primaryKey? = some k)
      (found : fields.find? (·.name == k.column) = some f) (null : f.isNull = true) :
      KeyFault t fields (.columnNotNullable k.column)
  | unknown {k : Constraint} (key : t.primaryKey? = some k) (absent : ∀ f ∈ fields, f.name ≠ k.column)
      (column : t.column? k.column = none) : KeyFault t fields (.columnNotFound k.column)
  | type {k : Constraint} {c : Column} (key : t.primaryKey? = some k) (absent : ∀ f ∈ fields, f.name ≠ k.column)
      (column : t.column? k.column = some c) (other : c.type ≠ .uuid ∧ c.type ≠ .string) :
      KeyFault t fields (.typeMismatch c.type)

theorem freshKey_eq_error_iff {fresh : Identifier} {type : DataType} {e : Error} :
    freshKey fresh type = .error e ↔ (type ≠ .uuid ∧ type ≠ .string) ∧ e = .typeMismatch type := by
  cases type <;> simp [freshKey, eq_comm]

theorem Table.identify_eq_error_iff {t : Table} {fields : List Field} {fresh : Identifier} {e : Error} :
    t.identify fields fresh = .error e ↔ t.KeyFault fields e := by
  constructor
  · intro failed
    unfold identify at failed
    split at failed
    · simp at failed
    · rename_i k key
      split at failed
      · rename_i f found
        cases null : f.isNull with
        | true =>
          simp only [Field.value?, null, if_true, Except.error.injEq] at failed
          subst failed
          exact .null key found null
        | false => simp [Field.value?, null] at failed
      · rename_i none
        have absent : ∀ f ∈ fields, f.name ≠ k.column := by simpa using none
        split at failed
        · rename_i column
          cases failed
          exact .unknown key absent column
        · rename_i c column
          cases made : freshKey fresh c.type with
          | ok v => simp [made, Except.map] at failed
          | error e' =>
            simp only [made, Except.map, Except.error.injEq] at failed
            subst failed
            obtain ⟨other, rfl⟩ := freshKey_eq_error_iff.mp made
            exact .type key absent column other
  · intro fault
    cases fault with
    | null key found null => simp [identify, key, found, Field.value?, null]
    | @unknown k key absent column =>
      have none : fields.find? (·.name == k.column) = none := by simpa using absent
      simp [identify, key, none, column]
    | @type k c key absent column other =>
      have none : fields.find? (·.name == k.column) = none := by simpa using absent
      have made := (@freshKey_eq_error_iff fresh _ _).mpr ⟨other, rfl⟩
      simp [identify, key, none, column, made, Except.map]

theorem Database.table_eq_ok_iff {db : Database} {name : String} {t : Table} :
    db.table name = .ok t ↔ db.table? name = some t := by
  unfold table
  cases db.table? name <;> simp

theorem Database.table_eq_error_iff {db : Database} {name : String} {e : Error} :
    db.table name = .error e ↔ db.table? name = none ∧ e = .tableNotFound name := by
  unfold table
  cases db.table? name <;> simp [eq_comm]

namespace Sql.Insert

structure Fills (i : Insert) (db : Database) (t : Table) (fields : List Field) : Prop where
  table : db.table? i.table = some t
  counts : (i.columns.resolve t).length = i.values.length
  each : List.Forall₂ (fun p f => t.Coerces p.1 p.2 f) ((i.columns.resolve t).zip i.values) fields

def Makes (i : Insert) (db : Database) (fresh : Identifier) (identity : String) (row : Row) : Prop :=
  ∃ t fields fields', i.Fills db t fields ∧ t.Identifies fields fresh identity fields' ∧
    row = .ofFields t.name fields'

/-- The first check that an INSERT fails on the way to its row. -/
inductive RowFault (i : Insert) (db : Database) : Error → Prop
  | table (absent : db.table? i.table = none) : RowFault i db (.tableNotFound i.table)
  | counts {t : Table} (table : db.table? i.table = some t)
      (differ : (i.columns.resolve t).length ≠ i.values.length) :
      RowFault i db (.lengthMismatch (i.columns.resolve t).length i.values.length)
  | field {t : Table} {e : Error} (table : db.table? i.table = some t)
      (counts : (i.columns.resolve t).length = i.values.length)
      (refused : t.RefusesFirst ((i.columns.resolve t).zip i.values) e) : RowFault i db e
  | key {t : Table} {fields : List Field} {e : Error} (fills : i.Fills db t fields) (fault : t.KeyFault fields e) :
      RowFault i db e

variable {i : Insert} {db : Database} {fresh : Identifier}

theorem row_eq_ok_iff_makes {identity : String} {row : Row} :
    i.row db fresh = .ok (identity, row) ↔ i.Makes db fresh identity row := by
  rw [row_eq_ok_iff]
  constructor
  · intro h
    obtain ⟨t, fields, fields', table, coerced, identifies, made⟩ := h
    obtain ⟨counts, each⟩ := Table.coerce_eq_ok_iff.mp coerced
    exact ⟨t, fields, fields', ⟨table, counts, each⟩, identifies, made⟩
  · intro h
    obtain ⟨t, fields, fields', fills, identifies, made⟩ := h
    exact ⟨t, fields, fields', fills.table, Table.coerce_eq_ok_iff.mpr ⟨fills.counts, fills.each⟩, identifies, made⟩

theorem Makes.named {identity : String} {row : Row} (makes : i.Makes db fresh identity row) : row.table = i.table :=
  table_of_row (row_eq_ok_iff_makes.mpr makes)

theorem row_eq_error_iff {e : Error} : i.row db fresh = .error e ↔ i.RowFault db e := by
  have steps : i.row db fresh = .error e ↔ db.table i.table = .error e ∨ ∃ t, db.table i.table = .ok t ∧
      (t.coerce (i.columns.resolve t) i.values = .error e ∨
        ∃ fields, t.coerce (i.columns.resolve t) i.values = .ok fields ∧ t.identify fields fresh = .error e) := by
    simp [row, Except.bind_eq_error_iff, pure, Except.pure]
  simp only [steps, Database.table_eq_error_iff, Database.table_eq_ok_iff, Table.coerce_eq_error_iff,
    Table.coerce_eq_ok_iff, Table.identify_eq_error_iff]
  constructor
  · intro h
    rcases h with ⟨absent, rfl⟩ | ⟨t, table, (⟨differ, rfl⟩ | ⟨counts, refused⟩) | ⟨fields, ⟨counts, each⟩, fault⟩⟩
    · exact .table absent
    · exact .counts table differ
    · exact .field table counts refused
    · exact .key ⟨table, counts, each⟩ fault
  · intro fault
    cases fault with
    | table absent => exact .inl ⟨absent, rfl⟩
    | counts table differ => exact .inr ⟨_, table, .inl (.inl ⟨differ, rfl⟩)⟩
    | field table counts refused => exact .inr ⟨_, table, .inl (.inr ⟨counts, refused⟩)⟩
    | key fills fault => exact .inr ⟨_, fills.table, .inr ⟨_, ⟨fills.counts, fills.each⟩, fault⟩⟩

end Sql.Insert

namespace RowStore

/-- The first check that an INSERT fails, where the storage fails by the names of units only. -/
inductive InsertFault (s : RowStore) (i : Sql.Insert) (fresh : Identifier) : Error → Prop
  | row {e : Error} (fault : i.RowFault s.schema e) : InsertFault s i fresh e
  | size {identity : String} {row : Row} (made : i.Makes s.schema fresh identity row)
      (big : s.limit < row.encode.length) : InsertFault s i fresh (.rowTooBig row.encode.length s.limit)
  | tableName {identity : String} {row : Row} (made : i.Makes s.schema fresh identity row)
      (fits : row.encode.length ≤ s.limit) (unfit : isUnitName i.table = false) :
      InsertFault s i fresh (.invalidKey i.table)
  | identity {identity : String} {row : Row} (made : i.Makes s.schema fresh identity row)
      (fits : row.encode.length ≤ s.limit) (fit : isUnitName i.table = true) (unfit : isUnitName identity = false) :
      InsertFault s i fresh (.invalidKey identity)

structure Admits (s : RowStore) (i : Sql.Insert) (fresh : Identifier) (identity : String) : Prop where
  row : ∃ row, i.Makes s.schema fresh identity row ∧ row.encode.length ≤ s.limit
  tableName : isUnitName i.table = true
  identity : isUnitName identity = true

variable {s : RowStore} {i : Sql.Insert} {fresh : Identifier}

theorem createRow_eq_ok_iff {m : Memory} {identity : String} {row : Row} :
    (s.createRow m identity row).1 = .ok () ↔
      row.encode.length ≤ s.limit ∧ isUnitName row.table = true ∧ isUnitName identity = true := by
  rw [createRow]
  split
  · rename_i big
    simp [Nat.not_le.mpr big]
  · rename_i fits
    simp [Memory.write_result_eq_ok_iff, Nat.not_lt.mp fits]

theorem createRow_eq_error_iff {m : Memory} {identity : String} {row : Row} {e : Error} :
    (s.createRow m identity row).1 = .error e ↔
      s.limit < row.encode.length ∧ e = .rowTooBig row.encode.length s.limit ∨
      row.encode.length ≤ s.limit ∧ (isUnitName row.table = false ∧ e = .invalidKey row.table ∨
        isUnitName row.table = true ∧ isUnitName identity = false ∧ e = .invalidKey identity) := by
  rw [createRow]
  split
  · rename_i big
    simp [big, Nat.not_le.mpr big, @eq_comm _ e]
  · rename_i fits
    simp [Memory.write_result_eq_error_iff, fits, Nat.not_lt.mp fits]

theorem runInsert_steps {m : Memory} : (s.runInsert m fresh i).result = (do
    let found ← i.row s.schema fresh
    (s.createRow m found.1 found.2).1
    return .inserted found.1) := by
  cases made : i.row s.schema fresh with
  | error e => simp [runInsert, made, bind, Except.bind]
  | ok found =>
    rw [runInsert_result made]
    rfl

theorem runInsert_eq_ok_iff {m : Memory} {r : ResultSet} :
    (s.runInsert m fresh i).result = .ok r ↔ ∃ identity, r = .inserted identity ∧ s.Admits i fresh identity := by
  simp only [runInsert_steps, Except.bind_eq_ok_iff]
  constructor
  · intro h
    obtain ⟨⟨identity, row⟩, made, ⟨⟩, created, shown⟩ := h
    cases shown
    have makes := Sql.Insert.row_eq_ok_iff_makes.mp made
    obtain ⟨fits, tableName, identityName⟩ := createRow_eq_ok_iff.mp created
    rw [makes.named] at tableName
    exact ⟨identity, rfl, ⟨row, makes, fits⟩, tableName, identityName⟩
  · intro h
    obtain ⟨identity, rfl, ⟨row, makes, fits⟩, tableName, identityName⟩ := h
    rw [← makes.named] at tableName
    have created := (createRow_eq_ok_iff (m := m)).mpr ⟨fits, tableName, identityName⟩
    exact ⟨(identity, row), Sql.Insert.row_eq_ok_iff_makes.mpr makes, (), created, rfl⟩

theorem runInsert_eq_error_iff {m : Memory} {e : Error} :
    (s.runInsert m fresh i).result = .error e ↔ s.InsertFault i fresh e := by
  have steps : (s.runInsert m fresh i).result = .error e ↔ i.row s.schema fresh = .error e ∨
      ∃ identity row, i.row s.schema fresh = .ok (identity, row) ∧ (s.createRow m identity row).1 = .error e := by
    simp [runInsert_steps, Except.bind_eq_error_iff, pure, Except.pure]
  simp only [steps, Sql.Insert.row_eq_error_iff, Sql.Insert.row_eq_ok_iff_makes, createRow_eq_error_iff]
  constructor
  · intro h
    rcases h with fault | ⟨identity, row, makes, refused⟩
    · exact .row fault
    -- The namespace of the unit is the table of the row, which is the one that the statement names.
    · rw [makes.named] at refused
      rcases refused with ⟨big, rfl⟩ | ⟨fits, ⟨unfit, rfl⟩ | ⟨fit, unfit, rfl⟩⟩
      · exact .size makes big
      · exact .tableName makes fits unfit
      · exact .identity makes fits fit unfit
  · intro fault
    cases fault with
    | row fault => exact .inl fault
    | size makes big => exact .inr ⟨_, _, makes, .inl ⟨big, rfl⟩⟩
    | tableName makes fits unfit =>
      rw [← makes.named] at unfit ⊢
      exact .inr ⟨_, _, makes, .inr ⟨fits, .inl ⟨unfit, rfl⟩⟩⟩
    | identity makes fits fit unfit =>
      rw [← makes.named] at fit
      exact .inr ⟨_, _, makes, .inr ⟨fits, .inr ⟨fit, unfit, rfl⟩⟩⟩

/-- In memory an INSERT gives the identity of its row if it passes all the checks, and else the error of the first
that it fails: the table, the number of values, each value in turn, the key, the size and the two names of the unit. -/
theorem insert_fails_at_first_fault (s : RowStore) (m : Memory) (i : Sql.Insert) (fresh : Identifier) :
    (∀ r, (s.runInsert m fresh i).result = .ok r ↔
      ∃ identity, r = .inserted identity ∧ s.Admits i fresh identity) ∧
    ∀ e, (s.runInsert m fresh i).result = .error e ↔ s.InsertFault i fresh e :=
  ⟨fun _ => runInsert_eq_ok_iff, fun _ => runInsert_eq_error_iff⟩

end RowStore

end RowBase
