import RowBase.Schema.Table
import RowBase.Timestamp.Reader

namespace RowBase

namespace Value

def int64? (s : String) : Option Int64 :=
  match Text.signedNumber? s.toList with
  | some i => if Int64.minValue.toInt ≤ i ∧ i ≤ Int64.maxValue.toInt then some (.ofInt i) else none
  | none => none

def bool? (s : String) : Option Bool :=
  if Text.sameLetters s "true" then some true
  else if Text.sameLetters s "false" then some false
  else none

def ofLiteral (type : DataType) (literal : String) : Except Error Value :=
  let orMismatch (v : Option Value) : Except Error Value :=
    match v with
    | some v => .ok v
    | none => .error (.typeMismatch type)
  match type with
  | .bool => orMismatch ((bool? literal).map .bool)
  | .int => orMismatch ((int64? literal).map .int)
  | .float => orMismatch ((Binary64.ofText? literal).map .float)
  | .string => .ok (.string literal)
  | .time => orMismatch ((Timestamp.ofLiteral? literal).map .time)
  | .bytes => .error (.unknownColumnType DataType.bytes.name)
  | .uuid =>
    match Identifier.ofText? literal with
    | some id => .ok (.uuid id)
    | none => .error (.invalidIdentifier literal)

end Value

namespace Table

/-- The field that a literal makes in a column. The word `null` in any letter case makes a null field, if
the table has any constraint on the column, whatever the constraint declares. -/
def coerceField (t : Table) (name literal : String) : Except Error Field :=
  match t.column? name with
  | none => .error (.columnNotFound name)
  | some c =>
    if Text.sameLetters literal "null" then
      match t.constraint? name with
      | some _ => .ok (.null c.name c.type)
      | none => .error (.columnNotNullable name)
    else (Value.ofLiteral c.type literal).map (.ofValue c.name c.type)

def coerce (t : Table) (names literals : List String) : Except Error (List Field) :=
  if names.length = literals.length then
    (names.zip literals).mapM fun (n, l) => t.coerceField n l
  else .error (.lengthMismatch names.length literals.length)

end Table

end RowBase
