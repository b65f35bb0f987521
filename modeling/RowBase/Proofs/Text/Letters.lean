import RowBase.Text.Case

namespace RowBase.Text

theorem toNat_toUpper (c : Char) :
    c.toUpper.toNat = if 97 ≤ c.toNat ∧ c.toNat ≤ 122 then c.toNat - 32 else c.toNat := by
  unfold Char.toUpper
  simp only [Char.toNat, UInt32.le_iff_toNat_le]
  split
  · rename_i small
    simp at small
    simp [small]
    omega
  · rename_i other
    simp at other
    simp
    omega

theorem toNat_toLower (c : Char) :
    c.toLower.toNat = if 65 ≤ c.toNat ∧ c.toNat ≤ 90 then c.toNat + 32 else c.toNat := by
  unfold Char.toLower
  simp only [Char.toNat, UInt32.le_iff_toNat_le]
  split
  · rename_i capital
    simp at capital
    simp [capital]
    omega
  · rename_i other
    simp at other
    simp
    omega

theorem toLower_of_isDigit {c : Char} (digit : c.isDigit = true) : c.toLower = c := by
  have bounds : 48 ≤ c.toNat ∧ c.toNat ≤ 57 := Char.isDigit_iff_toNat.mp digit
  apply Char.toNat_inj.mp
  rw [toNat_toLower, if_neg (by omega)]

theorem capital_of_ascii {c : Char} (ascii : c.toNat < 128) : capital c = [c.toUpper] := by
  unfold capital
  split
  all_goals first | rfl | simp at ascii

theorem capitals_ofList {cs : List Char} (ascii : ∀ c ∈ cs, c.toNat < 128) :
    capitals (.ofList cs) = .ofList (cs.map Char.toUpper) := by
  have flat : cs.flatMap capital = cs.map Char.toUpper := by
    induction cs with
    | nil => rfl
    | cons c cs ih =>
      rw [List.flatMap_cons, capital_of_ascii (ascii c (by simp)), ih fun d member => ascii d (by simp [member])]
      rfl
  simp only [capitals, String.toList_ofList, flat]

end RowBase.Text
