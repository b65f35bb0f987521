import RowBase.Encoding.Row
import RowBase.Schema.Database

namespace RowBase

namespace Column

def encode (c : Column) : Bytes :=
  Encoding.text c.name ++ c.type.encode

def decoder : Decoder Column := do
  let name ← Decoder.text
  let type ← DataType.decoder
  return ⟨name, type⟩

end Column

namespace DefaultValue

def encode : DefaultValue → Bytes
  | literal v => Encoding.word32 0 ++ v.encode
  | newIdentifier => Encoding.word32 1
  | currentTime => Encoding.word32 2

def decoder : Decoder DefaultValue := do
  match (← Decoder.word32).toNat with
  | 0 => return literal (← Value.decoder)
  | 1 => return newIdentifier
  | 2 => return currentTime
  | n => Decoder.fail (.variant n 3)

end DefaultValue

namespace Constraint

def encodeReference (r : String × String) : Bytes :=
  Encoding.text r.1 ++ Encoding.text r.2

def referenceDecoder : Decoder (String × String) := do
  let table ← Decoder.text
  let column ← Decoder.text
  return (table, column)

def encode (k : Constraint) : Bytes :=
  Encoding.text k.name ++ Encoding.text k.column ++ Encoding.bool k.primaryKey ++ Encoding.bool k.unique ++
    Encoding.bool k.notNull ++ Encoding.option encodeReference k.references ++
    Encoding.option DefaultValue.encode k.default

def decoder : Decoder Constraint := do
  let name ← Decoder.text
  let column ← Decoder.text
  let primaryKey ← Decoder.bool
  let unique ← Decoder.bool
  let notNull ← Decoder.bool
  let references ← Decoder.option referenceDecoder
  let default ← Decoder.option DefaultValue.decoder
  return ⟨name, column, primaryKey, unique, notNull, references, default⟩

end Constraint

namespace Table

def encode (t : Table) : Bytes :=
  Encoding.text t.name ++ Encoding.list Column.encode t.columns ++
    Encoding.list Constraint.encode t.constraints

def decoder : Decoder Table := do
  let name ← Decoder.text
  let columns ← Decoder.list Column.decoder
  let constraints ← Decoder.list Constraint.decoder
  return ⟨name, columns, constraints⟩

end Table

namespace Database

def encode (db : Database) : Bytes :=
  Encoding.text db.name ++ Encoding.list Table.encode db.tables ++ Encoding.word32 db.major ++
    Encoding.word32 db.minor

def decoder : Decoder Database := do
  let name ← Decoder.text
  let tables ← Decoder.list Table.decoder
  let major ← Decoder.word32
  let minor ← Decoder.word32
  return ⟨name, tables, major, minor⟩

def decode (bs : Bytes) : Except DecodeFault Database :=
  decoder.decode bs

end Database

end RowBase
