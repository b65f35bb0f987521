import RowBase.Binary64.Basic
import RowBase.Text.Number

namespace RowBase.Binary64

/-- The number `digits * 10 ^ exponent`. -/
structure Decimal where
  digits : Nat
  exponent : Int
  deriving DecidableEq, Repr

namespace Decimal

/-- The code of the magnitude nearest to a decimal. Exponents far outside the format are decided without
computing their powers: from 10 ^ 310 on all is infinite, below 10 ^ (-330) all is zero. -/
def nearest (d : Decimal) : Nat :=
  if d.digits = 0 then 0
  else
    match d.exponent with
    | .ofNat e => if 309 < e then infinityCode else nearestCode (d.digits * Nat.pow 10 e) 1
    | .negSucc e => if 330 + d.digits.log2 < e + 1 then 0 else nearestCode d.digits (Nat.pow 10 (e + 1))

def read (cs : List Char) : Option Decimal :=
  let whole := cs.takeWhile Char.isDigit
  let afterWhole := cs.dropWhile Char.isDigit
  let (fraction, rest) :=
    match afterWhole with
    | '.' :: ds => (ds.takeWhile Char.isDigit, ds.dropWhile Char.isDigit)
    | ds => ([], ds)
  if whole ++ fraction = [] then none
  else
    let scaled (e : Int) : Decimal := ⟨Nat.ofDigitChars 10 (whole ++ fraction) 0, e - fraction.length⟩
    match rest with
    | [] => some (scaled 0)
    | mark :: es => if mark = 'e' ∨ mark = 'E' then (Text.signedNumber? es).map scaled else none

/-- The decimal without its last `dropped` digits, rounded down or up, if that reads back as the code: the
nearer of the two if both do, a half going up. The decimal counts units of 10 ^ (-1074). -/
def shortened (code tail : Nat) (dropped : Nat) : Option Decimal :=
  let step := Nat.pow 10 dropped
  let below : Decimal := ⟨tail / step, dropped - 1074⟩
  let above : Decimal := ⟨tail / step + 1, dropped - 1074⟩
  if below.nearest = code ∧ (above.nearest ≠ code ∨ 2 * (tail % step) < step) then some below
  else if above.nearest = code then some above
  else none

def shortestFrom (code tail : Nat) : (dropped : Nat) → Decimal
  | 0 => ⟨tail, -1074⟩
  | n + 1 => (shortened code tail (n + 1)).getD (shortestFrom code tail n)

def shortest (code : Nat) : Decimal :=
  let exact := units code * Nat.pow 5 1074
  shortestFrom code exact ((Nat.toDigits 10 exact).length - 1)

def dropZeros (ds : List Char) : List Char :=
  (ds.reverse.dropWhile (· == '0')).reverse

def positional (d : Decimal) : List Char :=
  let ds := Nat.toDigits 10 d.digits
  match d.exponent with
  | .ofNat e => ds ++ List.replicate e '0'
  | .negSucc e =>
    let padded := List.replicate (e + 2 - ds.length) '0' ++ ds
    let whole := padded.take (padded.length - (e + 1))
    let fraction := dropZeros (padded.drop (padded.length - (e + 1)))
    if fraction = [] then whole else whole ++ '.' :: fraction

end Decimal

def ofWord? (negative : Bool) (cs : List Char) : Option Binary64 :=
  let w := String.ofList (cs.map Char.toLower)
  if w = "nan" then some (ofCode negative nanCode)
  else if w = "inf" ∨ w = "infinity" then some (ofCode negative infinityCode)
  else none

def ofUnsigned? (negative : Bool) (cs : List Char) : Option Binary64 :=
  ofWord? negative cs <|> (Decimal.read cs).map fun d => ofCode negative d.nearest

def ofText? (s : String) : Option Binary64 :=
  match s.toList with
  | '-' :: cs => ofUnsigned? true cs
  | '+' :: cs => ofUnsigned? false cs
  | cs => ofUnsigned? false cs

def magnitudeText (c : Nat) : List Char :=
  if c = 0 then ['0']
  else if c = infinityCode then ['i', 'n', 'f']
  else (Decimal.shortest c).positional

def text (x : Binary64) : String :=
  if x.isNaN then "NaN"
  else .ofList (if x.isNegative then '-' :: magnitudeText x.code else magnitudeText x.code)

end RowBase.Binary64
