import RowBase.Text.Case

namespace RowBase

inductive DataType
  | bool | int | float | string | time | bytes | uuid
  deriving DecidableEq, Repr

namespace DataType

/-- The number that stands for the type in stored data. -/
def ordinal : DataType → UInt8
  | bool => 1
  | int => 2
  | float => 3
  | string => 4
  | time => 5
  | bytes => 6
  | uuid => 7

def all : List DataType :=
  [bool, int, float, string, time, bytes, uuid]

def ofOrdinal? (n : UInt8) : Option DataType :=
  all.find? (·.ordinal == n)

def name : DataType → String
  | bool => "bool"
  | int => "int"
  | float => "float"
  | string => "string"
  | time => "time"
  | bytes => "bytes"
  | uuid => "uuid"

def spellings : DataType → List String
  | bool => ["BOOL", "BOOLEAN"]
  | int => ["INT", "INTEGER"]
  | float => ["FLOAT", "DOUBLE"]
  | string => ["STRING", "TEXT", "VARCHAR"]
  | time => ["TIME", "TIMESTAMP"]
  | bytes => ["BYTES"]
  | uuid => ["UUID"]

def ofName? (s : String) : Option DataType :=
  all.find? (·.spellings.contains (Text.capitals s))

theorem ofOrdinal?_ordinal (t : DataType) : ofOrdinal? t.ordinal = some t := by
  cases t <;> rfl

theorem ordinal_of_ofOrdinal? {n : UInt8} {t : DataType} (h : ofOrdinal? n = some t) : t.ordinal = n := by
  simpa using List.find?_some h

end DataType

end RowBase
