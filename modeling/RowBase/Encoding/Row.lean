import RowBase.Encoding.Basic
import RowBase.Value.Row

namespace RowBase

namespace DataType

def encode (t : DataType) : Bytes :=
  Encoding.byte t.ordinal

def decoder : Decoder DataType := do
  let n ← Decoder.byte
  match ofOrdinal? n with
  | some t => return t
  | none => Decoder.fail (.typeOrdinal n)

end DataType

namespace Identifier

def encode (id : Identifier) : Bytes :=
  id.bytes

def decoder : Decoder Identifier := fun bs =>
  if h : (bs.take 16).length = 16 then .ok (⟨bs.take 16, h⟩, bs.drop 16) else .error .endOfInput

end Identifier

namespace Timestamp

def encode (t : Timestamp) : Bytes :=
  Encoding.text t.text

def decoder : Decoder Timestamp := do
  let s ← Decoder.text
  match read s with
  | .ok t => return t
  | .error f => Decoder.fail (.time f)

end Timestamp

namespace Value

def encode : Value → Bytes
  | bool b => Encoding.word32 0 ++ Encoding.bool b
  | int i => Encoding.word32 1 ++ Encoding.word64 i.toUInt64
  | float x => Encoding.word32 2 ++ Encoding.word64 x.bits
  | string s => Encoding.word32 3 ++ Encoding.text s
  | time t => Encoding.word32 4 ++ t.encode
  | bytes bs => Encoding.word32 5 ++ Encoding.chunk bs
  | uuid id => Encoding.word32 6 ++ id.encode

def decoder : Decoder Value := do
  match (← Decoder.word32).toNat with
  | 0 => return bool (← Decoder.bool)
  | 1 => return int (← Decoder.word64).toInt64
  | 2 => return float ⟨← Decoder.word64⟩
  | 3 => return string (← Decoder.text)
  | 4 => return time (← Timestamp.decoder)
  | 5 => return bytes (← Decoder.chunk)
  | 6 => return uuid (← Identifier.decoder)
  | n => Decoder.fail (.variant n 7)

end Value

namespace Field

def encode (f : Field) : Bytes :=
  Encoding.text f.name ++ f.type.encode ++ Encoding.bool f.isNull ++ f.value.encode

def decoder : Decoder Field := do
  let name ← Decoder.text
  let type ← DataType.decoder
  let isNull ← Decoder.bool
  let value ← Value.decoder
  return ⟨name, type, isNull, value⟩

end Field

namespace Row

def encode (r : Row) : Bytes :=
  Encoding.text r.table ++ Encoding.list Field.encode r.fields ++ Encoding.bool r.deleted

def decoder : Decoder Row := do
  let table ← Decoder.text
  let fields ← Decoder.list Field.decoder
  let deleted ← Decoder.bool
  return ⟨table, fields, deleted⟩

def decode (bs : Bytes) : Except DecodeFault Row :=
  decoder.decode bs

end Row

end RowBase
