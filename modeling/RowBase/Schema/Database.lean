import RowBase.Schema.Table

namespace RowBase

structure Database where
  name : String
  tables : List Table
  major : UInt32
  minor : UInt32
  deriving DecidableEq

namespace Database

/-- A schema without tables, at the current version 0.1. -/
def blank (name : String) : Database :=
  ⟨name, [], 0, 1⟩

def table? (db : Database) (name : String) : Option Table :=
  db.tables.find? (·.name == name)

def table (db : Database) (name : String) : Except Error Table :=
  match db.table? name with
  | some t => .ok t
  | none => .error (.tableNotFound name)

def validate (db : Database) : Except Error Unit :=
  db.tables.forM (·.validate)

end Database

end RowBase
