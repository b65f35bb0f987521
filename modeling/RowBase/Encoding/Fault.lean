import RowBase.Text.Utf8
import RowBase.Timestamp.Reader

namespace RowBase

inductive DecodeFault
  | endOfInput
  | lengthBeyondInput
  | utf8 (f : Text.Utf8Fault)
  | boolByte (b : UInt8)
  | optionByte (b : UInt8)
  | typeOrdinal (b : UInt8)
  /-- A number that stands for none of `count` alternatives. -/
  | variant (found count : Nat)
  | time (f : Timestamp.Fault)
  deriving DecidableEq, Repr

def DecodeFault.message : DecodeFault → String
  | endOfInput => "io error: unexpected end of file"
  | lengthBeyondInput => "io error: "
  | utf8 f => "string is not valid utf8: " ++ f.message
  | boolByte b => s!"invalid u8 while decoding bool, expected 0 or 1, found {b}"
  | optionByte b => s!"tag for enum is not valid, found {b}"
  | typeOrdinal b => s!"unknown column type ordinal {b}"
  | variant found count =>
    "invalid value: integer \x60" ++ toString found ++ "\x60, expected variant index 0 <= i < " ++ toString count
  | time f => f.message

end RowBase
