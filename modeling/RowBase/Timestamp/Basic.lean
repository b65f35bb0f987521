namespace RowBase

structure Timestamp.Parts where
  year : Int
  month : Nat
  day : Nat
  hour : Nat
  minute : Nat
  second : Nat
  nanosecond : Nat
  /-- Minutes that the local clock is ahead of UTC. -/
  offset : Int
  deriving DecidableEq, Repr

namespace Timestamp

def isLeapYear (y : Int) : Bool :=
  y % 4 == 0 && (y % 100 != 0 || y % 400 == 0)

def daysInMonth (y : Int) (m : Nat) : Nat :=
  if m = 2 then if isLeapYear y then 29 else 28
  else if m = 4 ∨ m = 6 ∨ m = 9 ∨ m = 11 then 30
  else 31

def firstYear : Int := -262143
def lastYear : Int := 262142

namespace Parts

def DateValid (p : Parts) : Prop :=
  firstYear ≤ p.year ∧ p.year ≤ lastYear ∧ 1 ≤ p.month ∧ p.month ≤ 12 ∧
    1 ≤ p.day ∧ p.day ≤ daysInMonth p.year p.month

def ClockValid (p : Parts) : Prop :=
  p.hour < 24 ∧ p.minute < 60 ∧ p.second ≤ 60 ∧ p.nanosecond < 1000000000

def OffsetValid (p : Parts) : Prop :=
  -1440 < p.offset ∧ p.offset < 1440

/-- By how many days the date in UTC is ahead of the local date: -1, 0 or 1. -/
def utcDayShift (p : Parts) : Int :=
  (60 * p.hour + p.minute - p.offset) / 1440

def UtcValid (p : Parts) : Prop :=
  ¬(p.year = firstYear ∧ p.month = 1 ∧ p.day = 1 ∧ p.utcDayShift < 0) ∧
    ¬(p.year = lastYear ∧ p.month = 12 ∧ p.day = 31 ∧ 0 < p.utcDayShift)

def Valid (p : Parts) : Prop :=
  p.DateValid ∧ p.ClockValid ∧ p.OffsetValid ∧ p.UtcValid

instance (p : Parts) : Decidable p.DateValid := by unfold DateValid; infer_instance
instance (p : Parts) : Decidable p.ClockValid := by unfold ClockValid; infer_instance
instance (p : Parts) : Decidable p.OffsetValid := by unfold OffsetValid; infer_instance
instance (p : Parts) : Decidable p.UtcValid := by unfold UtcValid; infer_instance
instance (p : Parts) : Decidable p.Valid := by unfold Valid; infer_instance

end Parts

end Timestamp

/-- A local time and its offset from UTC in whole minutes. A leap second is second 60 of its minute. -/
structure Timestamp where
  parts : Timestamp.Parts
  valid : parts.Valid
  deriving DecidableEq

namespace Timestamp

def epoch : Timestamp :=
  ⟨⟨1970, 1, 1, 0, 0, 0, 0, 0⟩, by decide⟩

def padded (width n : Nat) : List Char :=
  let ds := Nat.toDigits 10 n
  List.replicate (width - ds.length) '0' ++ ds

/-- Years from 0 to 9999 have four digits; all others have a sign before at least four digits. -/
def yearText (y : Int) : List Char :=
  if 0 ≤ y ∧ y ≤ 9999 then padded 4 y.toNat
  else (if y < 0 then '-' else '+') :: padded 4 y.natAbs

def fractionText (ns : Nat) : List Char :=
  if ns = 0 then []
  else if ns % 1000000 = 0 then '.' :: padded 3 (ns / 1000000)
  else if ns % 1000 = 0 then '.' :: padded 6 (ns / 1000)
  else '.' :: padded 9 ns

def offsetText (m : Int) : List Char :=
  if m = 0 then ['Z']
  else (if m < 0 then '-' else '+') :: padded 2 (m.natAbs / 60) ++ ':' :: padded 2 (m.natAbs % 60)

def Parts.text (p : Parts) : String :=
  .ofList (yearText p.year ++ '-' :: padded 2 p.month ++ '-' :: padded 2 p.day ++
    'T' :: padded 2 p.hour ++ ':' :: padded 2 p.minute ++ ':' :: padded 2 p.second ++
    fractionText p.nanosecond ++ offsetText p.offset)

def text (t : Timestamp) : String :=
  t.parts.text

end Timestamp

end RowBase
