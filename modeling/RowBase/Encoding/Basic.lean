import RowBase.Encoding.Fault

namespace RowBase

abbrev Decoder (α : Type) :=
  StateT Bytes (Except DecodeFault) α

namespace Encoding

def littleEndian : (size n : Nat) → Bytes
  | 0, _ => []
  | k + 1, n => .ofNat n :: littleEndian k (n / 256)

def ofLittleEndian : Bytes → Nat
  | [] => 0
  | b :: bs => b.toNat + 256 * ofLittleEndian bs

def byte (b : UInt8) : Bytes :=
  [b]

def word32 (n : UInt32) : Bytes :=
  littleEndian 4 n.toNat

def word64 (n : UInt64) : Bytes :=
  littleEndian 8 n.toNat

def bool (b : Bool) : Bytes :=
  [if b then 1 else 0]

def chunk (bs : Bytes) : Bytes :=
  word64 (.ofNat bs.length) ++ bs

def text (s : String) : Bytes :=
  chunk (Text.utf8 s)

def option {α : Type} (item : α → Bytes) : Option α → Bytes
  | none => [0]
  | some a => 1 :: item a

def list {α : Type} (item : α → Bytes) (as : List α) : Bytes :=
  word64 (.ofNat as.length) ++ as.flatMap item

end Encoding

namespace Decoder

def fail {α : Type} (f : DecodeFault) : Decoder α :=
  fun _ => .error f

def take (n : Nat) (short : DecodeFault) : Decoder Bytes :=
  fun bs => if (bs.take n).length = n then .ok (bs.take n, bs.drop n) else .error short

def byte : Decoder UInt8
  | [] => .error .endOfInput
  | b :: rest => .ok (b, rest)

def word32 : Decoder UInt32 := do
  let bs ← take 4 .endOfInput
  return .ofNat (Encoding.ofLittleEndian bs)

def word64 : Decoder UInt64 := do
  let bs ← take 8 .endOfInput
  return .ofNat (Encoding.ofLittleEndian bs)

def bool : Decoder Bool := do
  let b ← byte
  if b = 0 then return false
  else if b = 1 then return true
  else fail (.boolByte b)

def chunk : Decoder Bytes := do
  let n ← word64
  take n.toNat .lengthBeyondInput

def text : Decoder String := do
  let bs ← chunk
  match Text.ofUtf8? bs with
  | some s => return s
  | none => fail (.utf8 (Text.utf8Fault bs))

def option {α : Type} (item : Decoder α) : Decoder (Option α) := do
  let b ← byte
  if b = 0 then return none
  else if b = 1 then return some (← item)
  else fail (.optionByte b)

def times {α : Type} (item : Decoder α) : Nat → Decoder (List α)
  | 0 => pure []
  | n + 1 => do
    let a ← item
    let as ← times item n
    return a :: as

def list {α : Type} (item : Decoder α) : Decoder (List α) := do
  let n ← word64
  times item n.toNat

/-- What the decoder makes of the start of the bytes; bytes after that are ignored. -/
def decode {α : Type} (d : Decoder α) (bs : Bytes) : Except DecodeFault α :=
  (d.run bs).map (·.1)

end Decoder

end RowBase
