import RowBase.Binary64.Decimal
import RowBase.Timestamp.Basic
import RowBase.Value.DataType
import RowBase.Value.Identifier

namespace RowBase

inductive Value
  | bool (b : Bool)
  | int (i : Int64)
  | float (x : Binary64)
  | string (s : String)
  | time (t : Timestamp)
  | bytes (bs : Bytes)
  | uuid (id : Identifier)
  deriving DecidableEq

namespace Value

def type : Value → DataType
  | bool _ => .bool
  | int _ => .int
  | float _ => .float
  | string _ => .string
  | time _ => .time
  | bytes _ => .bytes
  | uuid _ => .uuid

/-- The value that a null field of the type holds. -/
def zero : DataType → Value
  | .bool => bool false
  | .int => int 0
  | .float => float .zero
  | .string => string ""
  | .time => time .epoch
  | .bytes => bytes []
  | .uuid => uuid .zero

def boolText (b : Bool) : String :=
  if b then "true" else "false"

def text : Value → String
  | bool b => boolText b
  | int i => .ofList (Text.numberText i.toInt)
  | float x => x.text
  | string s => s
  | time t => t.text
  | bytes bs => .ofList (Text.hex bs)
  | uuid id => id.text

theorem type_zero (t : DataType) : (zero t).type = t := by
  cases t <;> rfl

end Value

end RowBase
