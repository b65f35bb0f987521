import RowBase.Text.Blank
import RowBase.Timestamp.Basic

namespace RowBase.Timestamp

inductive Fault
  | short
  | invalid
  | outOfRange
  | trailing
  /-- The date in UTC is beyond the supported calendar. -/
  | impossible
  deriving DecidableEq, Repr

def Fault.message : Fault → String
  | short => "premature end of input"
  | invalid => "input contains invalid characters"
  | outOfRange => "input is out of range"
  | trailing => "trailing input"
  | impossible => "no possible date and time matching input"

abbrev Scanner (α : Type) :=
  StateT (List Char) (Except Fault) α

namespace Scanner

def fail {α : Type} (f : Fault) : Scanner α :=
  fun _ => .error f

def skipBlanks : Scanner Unit :=
  fun cs => .ok ((), Text.trimLeft cs)

def oneOf (allowed : List Char) : Scanner Unit
  | [] => .error .short
  | c :: rest => if c ∈ allowed then .ok ((), rest) else .error .invalid

def numberOf (digits : List Char) (rest : List Char) : Except Fault (Nat × List Char) :=
  let n := Nat.ofDigitChars 10 digits 0
  if (n : Int) ≤ Int64.maxValue.toInt then .ok (n, rest) else .error .outOfRange

def number : Scanner Nat
  | [] => .error .short
  | c :: rest =>
    if c.isDigit then numberOf ((c :: rest).takeWhile Char.isDigit) ((c :: rest).dropWhile Char.isDigit)
    else .error .invalid

def shortNumber (width : Nat) : Scanner Nat
  | [] => .error .short
  | c :: rest =>
    if c.isDigit then
      let digits := ((c :: rest).take width).takeWhile Char.isDigit
      numberOf digits ((c :: rest).drop digits.length)
    else .error .invalid

def part (low high : Nat) : Scanner Nat := do
  skipBlanks
  let n ← shortNumber 2
  if low ≤ n ∧ n ≤ high then return n else fail .outOfRange

def separator (c : Char) : Scanner Unit := do
  skipBlanks
  oneOf [c]

def boundedYear (y : Int) : Scanner Int :=
  if Int32.minValue.toInt ≤ y ∧ y ≤ Int32.maxValue.toInt then pure y else fail .outOfRange

/-- Blanks and a year: up to four digits, or a sign and any number of digits. -/
def year : Scanner Int := do
  skipBlanks
  match ← get with
  | '-' :: rest => do
    set rest
    let n ← number
    boundedYear (-(n : Int))
  | '+' :: rest => do
    set rest
    let n ← number
    boundedYear n
  | _ => do
    let n ← shortNumber 4
    boundedYear n

/-- A point and the digits of a fraction of a second, in nanoseconds; digits after the ninth are dropped.
Without a point the fraction is zero. -/
def fraction : Scanner Nat
  | '.' :: rest =>
    match rest with
    | [] => .error .short
    | c :: _ =>
      if c.isDigit then
        let digits := (rest.takeWhile Char.isDigit).take 9
        .ok (Nat.ofDigitChars 10 digits 0 * Nat.pow 10 (9 - digits.length), rest.dropWhile Char.isDigit)
      else .error .invalid
  | cs => .ok (0, cs)

/-- Two digits, the first of them below `limit`; a greater first digit is out of range. A single ASCII
character is too short, any other character is as long as two of them. -/
def twoDigits (limit : Nat) : Scanner Nat
  | [] => .error .short
  | [c] => if c.toNat < 0x80 then .error .short else .error .invalid
  | c :: d :: rest =>
    if c.isDigit && d.isDigit then
      let n := Nat.ofDigitChars 10 [c, d] 0
      if n < limit then .ok (n, rest) else .error .outOfRange
    else .error .invalid

/-- The sign of an offset; U+2212 is a minus sign too. -/
def sign : Scanner Int
  | [] => .error .short
  | c :: rest =>
    if c = '+' then .ok (1, rest)
    else if c = '-' ∨ c = '−' then .ok (-1, rest)
    else .error .invalid

def skipColons : Scanner Unit :=
  fun cs => .ok ((), cs.dropWhile fun c => c == ':' || Text.isBlank c)

def signedOffset : Scanner Int := do
  let s ← sign
  let hours ← twoDigits 100
  skipColons
  let minutes ← twoDigits 60
  return s * (60 * hours + minutes)

def offset : Scanner Int := do
  skipBlanks
  let cs ← get
  if (cs.take 3).map Char.toLower = ['u', 't', 'c'] then
    set (cs.drop 3)
    return 0
  else if (cs.take 1).map Char.toLower = ['z'] then
    set (cs.drop 1)
    return 0
  else signedOffset

def parts : Scanner Parts := do
  let y ← year
  separator '-'
  let mo ← part 1 12
  separator '-'
  let d ← part 1 31
  oneOf ['t', 'T', ' ']
  let h ← part 0 23
  separator ':'
  let mi ← part 0 59
  separator ':'
  let s ← part 0 60
  let ns ← fraction
  let o ← offset
  return ⟨y, mo, d, h, mi, s, ns, o⟩

end Scanner

/-- Reads a stored time. Nothing but blanks may follow it. -/
def read (s : String) : Except Fault Timestamp := do
  let (p, rest) ← Scanner.parts.run s.toList
  if Text.trimLeft rest ≠ [] then throw .trailing
  if h : p.Valid then return ⟨p, h⟩
  else if p.DateValid ∧ p.OffsetValid then throw .impossible
  else throw .outOfRange

def ofLiteral? (s : String) : Option Timestamp :=
  match read s with
  | .ok t => if t.text = s ∧ 0 ≤ t.parts.year ∧ t.parts.year ≤ 9999 then some t else none
  | .error _ => none

end RowBase.Timestamp
