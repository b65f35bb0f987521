namespace RowBase

structure Binary64 where
  bits : UInt64
  deriving DecidableEq, Repr

namespace Binary64

def binade : Nat :=
  0x10000000000000

/-- The code of infinity; finite magnitudes have lower codes, and what is no number has a higher one. -/
def infinityCode : Nat :=
  0x7FF0000000000000

def nanCode : Nat :=
  0x7FF8000000000000

def signBit : Nat :=
  0x8000000000000000

def isNegative (x : Binary64) : Bool :=
  signBit ≤ x.bits.toNat

def code (x : Binary64) : Nat :=
  x.bits.toNat % signBit

def ofCode (negative : Bool) (c : Nat) : Binary64 :=
  ⟨.ofNat (if negative then signBit + c else c)⟩

def isNaN (x : Binary64) : Bool :=
  infinityCode < x.code

def zero : Binary64 :=
  ⟨0⟩

/-- The magnitude with this code, counted in units of 2 ^ (-1074). -/
def units (c : Nat) : Nat :=
  (c - (c / binade - 1) * binade) * Nat.pow 2 (c / binade - 1)

def roundHalfEven (n d : Nat) : Nat :=
  if 2 * (n % d) < d ∨ (2 * (n % d) = d ∧ n / d % 2 = 0) then n / d else n / d + 1

/-- The code of the magnitude nearest to the quotient, of two equally near ones the one with the even code.
Quotients beyond the finite magnitudes give infinity. -/
def nearestCode (n d : Nat) : Nat :=
  let m := n * Nat.pow 2 1074
  let scale := (m / d).log2 - 52
  min (scale * binade + roundHalfEven m (d * Nat.pow 2 scale)) infinityCode

end Binary64

end RowBase
