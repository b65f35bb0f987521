import RowBase.Encoding.Row
import RowBase.Schema.Database
import RowBase.Storage.Basic

namespace RowBase

inductive Warning
  | filtersIgnored
  | readFailed (key : String)
  | decodeFailed (key : String)
  | missingColumns (key : String)
  deriving DecidableEq, Repr

namespace Warning

def message : Warning → String
  | filtersIgnored => "row filters are not evaluated"
  | readFailed _ => "read row failed"
  | decodeFailed _ => "decode row failed"
  | missingColumns _ => "invalid result column length"

def key? : Warning → Option String
  | filtersIgnored => none
  | readFailed k | decodeFailed k | missingColumns k => some k

end Warning

inductive Operator
  | less | lessOrEqual | greater | greaterOrEqual | equal | notEqual
  deriving DecidableEq, Repr

structure Filter where
  column : String
  operator : Operator
  value : String
  deriving DecidableEq, Repr

structure RowStore where
  schema : Database
  limit : Nat
  limit_le : limit ≤ maxRowSize

namespace RowStore

def ofSchema (db : Database) : RowStore :=
  ⟨db, maxRowSize, Nat.le_refl _⟩

/-- The limit can only be lowered. -/
def withLimit (s : RowStore) (n : Nat) : RowStore :=
  { s with limit := min n maxRowSize, limit_le := Nat.min_le_right _ _ }

variable {σ : Type} [Storage σ]

/-- Writes a row under an identity, unless it is too big. The table needs not be in the schema. -/
def createRow (s : RowStore) (store : σ) (identity : String) (row : Row) : Except Error Unit × σ :=
  if s.limit < row.encode.length then (.error (.rowTooBig row.encode.length s.limit), store)
  else Storage.write store row.table identity row.encode

end RowStore

def rowOfUnit (columns : List String) : String × Except Error Bytes → Except Warning Row
  | (key, .error _) => .error (.readFailed key)
  | (key, .ok bs) =>
    match Row.decode bs with
    | .error _ => .error (.decodeFailed key)
    | .ok row =>
      if (row.project columns).length = columns.length then .ok { row with fields := row.project columns }
      else .error (.missingColumns key)

def okPart {ε α : Type} : Except ε α → Option α
  | .ok a => some a
  | .error _ => none

def errorPart {ε α : Type} : Except ε α → Option ε
  | .ok _ => none
  | .error e => some e

/-- The rows of a table in listing order, and the warnings. Filters are not evaluated. -/
def scanTable {σ : Type} [Storage σ] (store : σ) (table : String) (columns : List String)
    (filters : List Filter) : Except Error (List Row) × List Warning :=
  let ignored := if filters.isEmpty then [] else [.filtersIgnored]
  match Storage.units store table with
  | .error e => (.error e, ignored)
  | .ok units =>
    let read := units.map (rowOfUnit columns)
    (.ok (read.filterMap okPart), ignored ++ read.filterMap errorPart)

end RowBase
