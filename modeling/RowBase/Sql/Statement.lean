namespace RowBase.Sql

inductive Columns
  | all
  | named (names : List String)
  deriving DecidableEq, Repr

structure Insert where
  table : String
  columns : Columns
  /-- The texts of the literals, without their quotes. -/
  values : List String
  deriving DecidableEq, Repr

structure Select where
  table : String
  columns : Columns
  deriving DecidableEq, Repr

structure ColumnDefinition where
  name : String
  typeName : String
  deriving DecidableEq, Repr

structure CreateTable where
  table : String
  columns : List ColumnDefinition
  deriving DecidableEq, Repr

inductive Statement
  | insert (s : Insert)
  | select (s : Select)
  | createTable (s : CreateTable)
  deriving DecidableEq, Repr

end RowBase.Sql
