import RowBase.Text.Hex

namespace RowBase

structure Identifier where
  bytes : Bytes
  size_eq : bytes.length = 16
  deriving DecidableEq

namespace Identifier

def hyphens : List Nat :=
  [8, 13, 18, 23]

/-- Whether a text has the layout: 36 bytes, and every character a hyphen if it starts at the offset of one, else a
digit. -/
def isLayout (cs : List Char) : Bool :=
  Text.byteLength cs == 36 &&
    (Text.charOffsets 0 cs).all fun (i, c) => if hyphens.contains i then c == '-' else Text.isLowerHex c

def ofText? (s : String) : Option Identifier :=
  if isLayout s.toList then
    match Text.ofHex? (s.toList.filter (· != '-')) with
    | some bs => if h : bs.length = 16 then some ⟨bs, h⟩ else none
    | none => none
  else none

def text (id : Identifier) : String :=
  .ofList (Text.hex (id.bytes.take 4) ++ '-' :: Text.hex ((id.bytes.drop 4).take 2) ++
    '-' :: Text.hex ((id.bytes.drop 6).take 2) ++ '-' :: Text.hex ((id.bytes.drop 8).take 2) ++
    '-' :: Text.hex (id.bytes.drop 10))

def zero : Identifier :=
  ⟨List.replicate 16 0, rfl⟩

/-- An identifier made of random bytes: the version is set to 4 and the variant to the standard one, all
other bits are kept. -/
def ofRandom (id : Identifier) : Identifier where
  bytes := (id.bytes.modify 6 fun b => 0x40 ||| (b &&& 0x0F)).modify 8 fun b => 0x80 ||| (b &&& 0x3F)
  size_eq := by simp [id.size_eq]

end Identifier

end RowBase
