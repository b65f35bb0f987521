import RowBase.Text.Case

namespace RowBase.Sql

inductive Keyword
  | create | table | insert | into | values | select | from
  | bool | int | float | string | time | bytes | uuid
  | not | null | primary | foreign | key | unique
  deriving DecidableEq, Repr

namespace Keyword

def name : Keyword → String
  | create => "CREATE"
  | table => "TABLE"
  | insert => "INSERT"
  | into => "INTO"
  | values => "VALUES"
  | select => "SELECT"
  | «from» => "FROM"
  | bool => "BOOL"
  | int => "INT"
  | float => "FLOAT"
  | string => "STRING"
  | time => "TIME"
  | bytes => "BYTES"
  | uuid => "UUID"
  | not => "NOT"
  | null => "NULL"
  | primary => "PRIMARY"
  | foreign => "FOREIGN"
  | key => "KEY"
  | unique => "UNIQUE"

def all : List Keyword :=
  [create, table, insert, into, values, select, «from», bool, int, float, string, time, bytes, uuid,
    not, null, primary, foreign, key, unique]

def ofName? (s : String) : Option Keyword :=
  all.find? (·.name == Text.capitals s)

/-- Reserved keywords shape statements and are never names. -/
def isReserved : Keyword → Bool
  | create | table | insert | into | values | select | «from» => true
  | _ => false

def isType : Keyword → Bool
  | bool | int | float | string | time | bytes | uuid => true
  | _ => false

/-- The name a keyword stands for where a name is expected: its spelling in small letters. -/
def asName (k : Keyword) : String :=
  .ofList (k.name.toList.map Char.toLower)

theorem mem_all (k : Keyword) : k ∈ all := by
  cases k <;> decide

end Keyword

end RowBase.Sql
