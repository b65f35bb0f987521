import RowBase.Error
import RowBase.Value.Row

namespace RowBase

structure Column where
  name : String
  type : DataType
  deriving DecidableEq

inductive DefaultValue
  | literal (v : Value)
  | newIdentifier
  | currentTime
  deriving DecidableEq

/-- A constraint on one column. Writing a row consults it for the primary key and for whether null is
allowed; the rest is kept with the schema only. -/
structure Constraint where
  name : String
  column : String
  primaryKey : Bool
  unique : Bool
  notNull : Bool
  references : Option (String × String)
  default : Option DefaultValue
  deriving DecidableEq

structure Table where
  name : String
  columns : List Column
  constraints : List Constraint
  deriving DecidableEq

def firstRepeated (seen : List String) : List String → Option String
  | [] => none
  | a :: rest => if a ∈ seen then some a else firstRepeated (a :: seen) rest

namespace Table

def columnNames (t : Table) : List String :=
  t.columns.map (·.name)

def column? (t : Table) (name : String) : Option Column :=
  t.columns.find? (·.name == name)

def constraint? (t : Table) (column : String) : Option Constraint :=
  t.constraints.find? (·.column == column)

def primaryKey? (t : Table) : Option Constraint :=
  t.constraints.find? (·.primaryKey)

/-- The first reason why a table is not valid: it needs a column, columns of distinct names, constraints on
existing columns only, and at most one primary key. -/
def fault? (t : Table) : Option TableFault :=
  if t.columns = [] then some .noColumns
  else
    match firstRepeated [] t.columnNames with
    | some c => some (.duplicateColumn c)
    | none =>
      match t.constraints.find? fun k => !t.columnNames.contains k.column with
      | some k => some (.unknownColumn k.name k.column)
      | none => if 1 < t.constraints.countP (·.primaryKey) then some .manyPrimaryKeys else none

def validate (t : Table) : Except Error Unit :=
  match t.fault? with
  | some f => .error (.invalidTable t.name f)
  | none => .ok ()

end Table

end RowBase
