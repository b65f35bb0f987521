import RowBase.Text.Utf8

namespace RowBase.Text

def hexValue? (c : Char) : Option Nat :=
  if c.isDigit then some (c.toNat - 48)
  else if 'a' ≤ c ∧ c ≤ 'f' then some (c.toNat - 87)
  else if 'A' ≤ c ∧ c ≤ 'F' then some (c.toNat - 55)
  else none

def isLowerHex (c : Char) : Bool :=
  c.isDigit || ('a' ≤ c && c ≤ 'f')

def hexByte (b : UInt8) : List Char :=
  [(b.toNat / 16).digitChar, (b.toNat % 16).digitChar]

def hex (bs : Bytes) : List Char :=
  bs.flatMap hexByte

def ofHex? : List Char → Option Bytes
  | [] => some []
  | [_] => none
  | c :: d :: rest => do
    let hi ← hexValue? c
    let lo ← hexValue? d
    let bs ← ofHex? rest
    return .ofNat (16 * hi + lo) :: bs

theorem hexValue?_digitChar : ∀ n : Fin 16, hexValue? n.val.digitChar = some n.val := by
  decide

theorem ofHex?_hex (bs : Bytes) : ofHex? (hex bs) = some bs := by
  induction bs with
  | nil => rfl
  | cons b bs ih =>
    have hi := hexValue?_digitChar ⟨b.toNat / 16, by have := b.toNat_lt; omega⟩
    have lo := hexValue?_digitChar ⟨b.toNat % 16, by omega⟩
    simp only [hex] at ih
    simp only [hex, List.flatMap_cons, hexByte, List.cons_append, List.nil_append, ofHex?]
    rw [hi, lo, ih]
    show some (.ofNat (16 * (b.toNat / 16) + b.toNat % 16) :: bs) = _
    rw [Nat.div_add_mod, UInt8.ofNat_toNat]

end RowBase.Text
