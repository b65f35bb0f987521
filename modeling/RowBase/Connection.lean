import RowBase.Execution
import RowBase.Text.Blank

namespace RowBase

inductive StatementKind
  | insert | select | update | delete | create
  deriving DecidableEq, Repr

namespace StatementKind

def keyword : StatementKind → String
  | insert => "INSERT"
  | select => "SELECT"
  | update => "UPDATE"
  | delete => "DELETE"
  | create => "CREATE"

def all : List StatementKind :=
  [insert, select, update, delete, create]

/-- The kind of a statement by its first letters, after any blanks. -/
def ofText? (sql : String) : Option StatementKind :=
  let letters := (Text.trimLeft sql.toList).takeWhile Char.isAlpha
  all.find? (·.keyword == Text.capitals (.ofList letters))

end StatementKind

structure Cursor where
  columns : List String
  rows : List (List Field)
  lastInsertId : Option String
  closed : Bool
  deriving DecidableEq

namespace Cursor

def ofResult : ResultSet → Cursor
  | .inserted identity => ⟨[], [], some identity, false⟩
  | .selected columns rows => ⟨columns, rows.map (·.fields), none, false⟩

def next (c : Cursor) : Option (List Field) × Cursor :=
  if c.closed then (none, c)
  else
    match c.rows with
    | [] => (none, c)
    | row :: rest => (some row, { c with rows := rest })

def close (c : Cursor) : Cursor :=
  { c with closed := true }

end Cursor

namespace RowStore

variable {σ : Type} [Storage σ]

def runUpdate (_ : RowStore) (store : σ) : Outcome σ ResultSet :=
  ⟨.error (.unimplemented "UPDATE"), store, []⟩

def runDelete (_ : RowStore) (store : σ) : Outcome σ ResultSet :=
  ⟨.error (.unimplemented "DELETE"), store, []⟩

def query (s : RowStore) (store : σ) (fresh : Identifier) (sql : String) : Outcome σ Cursor :=
  let run : Outcome σ ResultSet :=
    match StatementKind.ofText? sql with
    | none => ⟨.error (.unexpected (Text.trim sql) "INSERT, SELECT, UPDATE, DELETE or CREATE"), store, []⟩
    | some .update => s.runUpdate store
    | some .delete => s.runDelete store
    | some _ => s.execute store fresh sql
  { run with result := run.result.map .ofResult }

def begin (_ : RowStore) : Except Error Unit :=
  .error (.unimplemented "BEGIN")

def commit (_ : RowStore) : Except Error Unit :=
  .error (.unimplemented "COMMIT")

def rollback (_ : RowStore) : Except Error Unit :=
  .error (.unimplemented "ROLLBACK")

def prepare (_ : RowStore) (_ : String) : Except Error Unit :=
  .error (.unimplemented "PREPARE")

end RowStore

end RowBase
