import RowBase.Encoding.Schema
import RowBase.Storage.FileTree

namespace RowBase

structure Config where
  dataDir : FilePath
  schemaFile : String
  maxRowSize : UInt64
  deriving DecidableEq

namespace Config

def standard : Config :=
  ⟨⟨"."⟩, "schema", .ofNat RowBase.maxRowSize⟩

def schemaPath (c : Config) : FilePath :=
  c.dataDir.join c.schemaFile

def validate (c : Config) : Except Error Unit :=
  if c.schemaFile = "" then .error .emptySchemaFile
  else if c.maxRowSize = 0 ∨ RowBase.maxRowSize < c.maxRowSize.toNat then
    .error (.rowLimitOutOfRange c.maxRowSize.toNat)
  else .ok ()

def encode (c : Config) : Bytes :=
  Encoding.text c.dataDir.text ++ Encoding.text c.schemaFile ++ Encoding.word64 c.maxRowSize

def decoder : Decoder Config := do
  let dataDir ← Decoder.text
  let schemaFile ← Decoder.text
  let maxRowSize ← Decoder.word64
  return ⟨⟨dataDir⟩, schemaFile, maxRowSize⟩

def decode (bs : Bytes) : Except DecodeFault Config :=
  decoder.decode bs

end Config

namespace Database

def save (db : Database) (c : Config) (t : FileTree) : Except Error Nat × FileTree :=
  match db.validate with
  | .error e => (.error e, t)
  | .ok () => (t.save c.schemaPath db.encode).map (·.map fun () => db.encode.length) id

def load (c : Config) (t : FileTree) : Except Error Database := do
  let bs ← t.load c.schemaPath
  match decode bs with
  | .error f => throw (.undecodable f)
  | .ok db =>
    db.validate
    return db

end Database

end RowBase
