import RowBase.Value.Basic

namespace RowBase

structure Field where
  name : String
  type : DataType
  isNull : Bool
  value : Value
  deriving DecidableEq

namespace Field

def ofValue (name : String) (type : DataType) (v : Value) : Field :=
  ⟨name, type, false, v⟩

def null (name : String) (type : DataType) : Field :=
  ⟨name, type, true, .zero type⟩

def value? (f : Field) : Option Value :=
  if f.isNull then none else some f.value

def text (f : Field) : String :=
  match f.value? with
  | some v => v.text
  | none => "NULL"

end Field

structure Row where
  table : String
  fields : List Field
  /-- Stored with the row; nothing sets it and no scan looks at it. -/
  deleted : Bool
  deriving DecidableEq

namespace Row

def ofFields (table : String) (fields : List Field) : Row :=
  ⟨table, fields, false⟩

def field? (r : Row) (name : String) : Option Field :=
  r.fields.find? (·.name == name)

def project (r : Row) (names : List String) : List Field :=
  names.filterMap r.field?

end Row

end RowBase
