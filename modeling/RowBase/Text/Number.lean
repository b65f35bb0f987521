namespace RowBase.Text

def number? (cs : List Char) : Option Nat :=
  if cs ≠ [] ∧ cs.all Char.isDigit then some (Nat.ofDigitChars 10 cs 0) else none

def signedNumber? : List Char → Option Int
  | '-' :: cs => (number? cs).map fun n => -(n : Int)
  | '+' :: cs => (number? cs).map fun n => (n : Int)
  | cs => (number? cs).map fun n => (n : Int)

def numberText (i : Int) : List Char :=
  if i < 0 then '-' :: Nat.toDigits 10 i.natAbs else Nat.toDigits 10 i.natAbs

end RowBase.Text
