import RowBase.Encoding.Fault
import RowBase.Storage.Fault
import RowBase.Text.Quoted
import RowBase.Value.DataType

namespace RowBase

inductive TableFault
  | noColumns
  | duplicateColumn (column : String)
  | unknownColumn (constraint column : String)
  | manyPrimaryKeys
  deriving DecidableEq, Repr

def TableFault.message : TableFault → String
  | noColumns => "no columns"
  | duplicateColumn c => "duplicate column " ++ c
  | unknownColumn k c => "constraint " ++ k ++ " references unknown column " ++ c
  | manyPrimaryKeys => "multiple primary keys"

inductive Error
  | unexpected (found expected : String)
  /-- A token was handed back while another one was still waiting. -/
  | tokenWaiting
  /-- A literal was asked for while a token read in statement mode was still waiting. -/
  | tokenBeforeLiteral
  | tableNotFound (table : String)
  | columnNotFound (column : String)
  | invalidTable (table : String) (fault : TableFault)
  | typeMismatch (type : DataType)
  | invalidIdentifier (text : String)
  | lengthMismatch (fields values : Nat)
  | columnNotNullable (column : String)
  | unknownColumnType (name : String)
  | rowTooBig (size limit : Nat)
  | invalidKey (name : String)
  | readFailed (path : String) (fault : FileFault)
  | writeFailed (path : String) (fault : FileFault)
  | unimplemented (feature : String)
  | undecodable (fault : DecodeFault)
  | emptySchemaFile
  | rowLimitOutOfRange (limit : Nat)
  | driverRegistered (name : String)
  | unknownDriver (name : String)
  deriving DecidableEq, Repr

def maxRowSize : Nat :=
  8192

def Error.message : Error → String
  | unexpected found expected => "parse error: found " ++ Text.quoted found ++ ", expected " ++ expected
  | tokenWaiting => "internal error: a token is waiting already"
  | tokenBeforeLiteral => "internal error: a token is waiting before a literal"
  | tableNotFound t => "schema error: no such table " ++ t
  | columnNotFound c => "schema error: no such column " ++ c
  | invalidTable t f => "schema error: invalid table " ++ t ++ ": " ++ f.message
  | typeMismatch t => "value error: value type not " ++ t.name
  | invalidIdentifier s => "value error: invalid uuid " ++ Text.quoted s
  | lengthMismatch f v => s!"value error: columns and values length not match ({f} fields, {v} values)"
  | columnNotNullable c => "value error: column " ++ c ++ " not nullable"
  | unknownColumnType t => "value error: unknown column type " ++ t
  | rowTooBig s l => s!"storage error: data row too big ({s} bytes, limit {l})"
  | invalidKey s => "storage error: invalid row key " ++ Text.quoted s
  | readFailed p f => "storage error: read failed: " ++ p ++ ": " ++ f.message
  | writeFailed p f => "storage error: write failed: " ++ p ++ ": " ++ f.message
  | unimplemented what => what ++ " not implemented"
  | undecodable f => "internal error: " ++ f.message
  | emptySchemaFile => "internal error: schema file name is empty"
  | rowLimitOutOfRange n => s!"internal error: max row size {n} outside 1..={maxRowSize}"
  | driverRegistered n => "internal error: driver " ++ n ++ " already registered"
  | unknownDriver n => "internal error: unknown driver " ++ n

end RowBase
