import RowBase.RowStore
import RowBase.Sql.Parser
import RowBase.Value.Literal

namespace RowBase

def Sql.Columns.resolve (c : Sql.Columns) (t : Table) : List String :=
  match c with
  | .all => t.columnNames
  | .named names => names

def freshKey (fresh : Identifier) : DataType → Except Error Value
  | .uuid => .ok (.uuid fresh)
  | .string => .ok (.string fresh.text)
  | type => .error (.typeMismatch type)

/-- The identity of a row and its fields: the text of its primary key, which is made up and put behind the
other fields if it is not among them. A table without a primary key gives no meaning to the identity. -/
def Table.identify (t : Table) (fields : List Field) (fresh : Identifier) :
    Except Error (String × List Field) :=
  match t.primaryKey? with
  | none => .ok (fresh.text, fields)
  | some key =>
    match fields.find? (·.name == key.column) with
    | some f =>
      match f.value? with
      | some v => .ok (v.text, fields)
      | none => .error (.columnNotNullable key.column)
    | none =>
      match t.column? key.column with
      | none => .error (.columnNotFound key.column)
      | some c => (freshKey fresh c.type).map fun v => (fresh.text, fields ++ [.ofValue c.name c.type v])

namespace Sql

def Insert.row (s : Insert) (db : Database) (fresh : Identifier) : Except Error (String × Row) := do
  let table ← db.table s.table
  let fields ← table.coerce (s.columns.resolve table) s.values
  let (identity, fields) ← table.identify fields fresh
  return (identity, .ofFields table.name fields)

def Select.target (s : Select) (db : Database) : Except Error (String × List String) := do
  let table ← db.table s.table
  let columns := s.columns.resolve table
  match columns.find? fun c => (table.column? c).isNone with
  | some c => throw (.columnNotFound c)
  | none => return (table.name, columns)

end Sql

inductive ResultSet
  | inserted (identity : String)
  | selected (columns : List String) (rows : List Row)
  deriving DecidableEq

structure Outcome (σ α : Type) where
  result : Except Error α
  store : σ
  warnings : List Warning

namespace RowStore

variable {σ : Type} [Storage σ]

def runInsert (s : RowStore) (store : σ) (fresh : Identifier) (i : Sql.Insert) : Outcome σ ResultSet :=
  match i.row s.schema fresh with
  | .error e => ⟨.error e, store, []⟩
  | .ok (identity, row) =>
    match s.createRow store identity row with
    | (.ok (), store') => ⟨.ok (.inserted identity), store', []⟩
    | (.error e, store') => ⟨.error e, store', []⟩

def runSelect (s : RowStore) (store : σ) (q : Sql.Select) : Outcome σ ResultSet :=
  match q.target s.schema with
  | .error e => ⟨.error e, store, []⟩
  | .ok (table, columns) =>
    let (rows, warnings) := scanTable store table columns []
    ⟨rows.map (.selected columns), store, warnings⟩

/-- Statements that change or remove rows, and those that make tables, are not implemented. -/
def runStatement (s : RowStore) (store : σ) (fresh : Identifier) : Sql.Statement → Outcome σ ResultSet
  | .insert i => s.runInsert store fresh i
  | .select q => s.runSelect store q
  | .createTable _ => ⟨.error (.unimplemented "CREATE TABLE"), store, []⟩

def execute (s : RowStore) (store : σ) (fresh : Identifier) (sql : String) : Outcome σ ResultSet :=
  match Sql.Statement.parse sql with
  | .error e => ⟨.error e, store, []⟩
  | .ok statement => s.runStatement store fresh statement

end RowStore

end RowBase
