import Mathlib.Algebra.Group.Nat.Defs
import Mathlib.Tactic.ByContra
import Mathlib.Tactic.SplitIfs
import RowBase.SortedMap
import RowBase.Text.Utf8

namespace RowBase.Text

theorem utf8_ofList (cs : List Char) : utf8 (.ofList cs) = cs.flatMap String.utf8EncodeChar := by
  simp [utf8, List.utf8Encode]

theorem utf8_eq (s : String) : utf8 s = s.toList.flatMap String.utf8EncodeChar := by
  rw [← utf8_ofList, String.ofList_toList]

theorem cons_lt_cons {m n : Nat} (small : n < 256) (most : m ≤ n) {bs cs : Bytes}
    (rest : m = n → bs < cs) : UInt8.ofNat m :: bs < UInt8.ofNat n :: cs := by
  rw [List.cons_lt_cons_iff]
  by_cases same : m = n
  · exact .inr ⟨congrArg _ same, rest same⟩
  · have less : UInt8.ofNat m < UInt8.ofNat n := by
      rw [UInt8.lt_iff_toNat_lt, UInt8.toNat_ofNat', UInt8.toNat_ofNat']
      omega
    exact .inl less

/-- The first byte of a character; characters with more bytes have higher ones. -/
def leadByte (n : Nat) : Nat :=
  if n ≤ 0x7f then n
  else if n ≤ 0x7ff then n / 64 % 32 + 0xc0
  else if n ≤ 0xffff then n / 4096 % 16 + 0xe0
  else n / 262144 % 8 + 0xf0

def tailLength (n : Nat) : Nat :=
  if n ≤ 0x7f then 0
  else if n ≤ 0x7ff then 1
  else if n ≤ 0xffff then 2
  else 3

/-- The bytes after the first: the lowest digits of the code to the base 64. -/
def tailBytes (n : Nat) : (count : Nat) → Bytes
  | 0 => []
  | count + 1 => UInt8.ofNat (n / 64 ^ count % 64 + 0x80) :: tailBytes n count

theorem encodeChar_eq (c : Char) : String.utf8EncodeChar c =
    UInt8.ofNat (leadByte c.val.toNat) :: tailBytes c.val.toNat (tailLength c.val.toNat) := by
  unfold String.utf8EncodeChar leadByte tailLength
  generalize c.val.toNat = n
  dsimp only
  split_ifs
  · rfl
  · simp [tailBytes]
  · simp [tailBytes]
  · simp [tailBytes]

theorem tailBytes_lt {m n count : Nat} (less : m % 64 ^ count < n % 64 ^ count) (bs cs : Bytes) :
    tailBytes m count ++ bs < tailBytes n count ++ cs := by
  induction count with
  | zero => omega
  | succ count ih =>
    rw [Nat.pow_succ, Nat.mod_mul, Nat.mod_mul] at less
    have rest : n % 64 ^ count < 64 ^ count := Nat.mod_lt _ (Nat.pow_pos (by decide))
    have most : m / 64 ^ count % 64 ≤ n / 64 ^ count % 64 := by
      by_contra above
      have more := Nat.mul_le_mul_left (64 ^ count) (Nat.succ_le_of_lt (Nat.lt_of_not_le above))
      rw [Nat.mul_succ] at more
      omega
    refine cons_lt_cons (by omega) (by omega) fun same => ih ?_
    have same : m / 64 ^ count % 64 = n / 64 ^ count % 64 := by omega
    rw [same] at less
    omega

section Characters

variable {m n : Nat} (less : m < n) (bound : n < 0x110000)
include less bound

theorem leadByte_le : leadByte m ≤ leadByte n := by
  unfold leadByte
  split_ifs <;> omega

theorem tail_lt_of_leadByte_eq (same : leadByte m = leadByte n) :
    tailLength m = tailLength n ∧ m % 64 ^ tailLength n < n % 64 ^ tailLength n := by
  unfold leadByte at same
  unfold tailLength
  split_ifs at same ⊢ <;> omega

end Characters

theorem encodeChar_lt_encodeChar {c d : Char} (less : c < d) (bs cs : Bytes) :
    String.utf8EncodeChar c ++ bs < String.utf8EncodeChar d ++ cs := by
  have less : c.val.toNat < d.val.toNat := less
  have bound : d.val.toNat < 0x110000 := by
    rcases d.valid with low | ⟨_, high⟩
    · omega
    · exact high
  rw [encodeChar_eq, encodeChar_eq, List.cons_append, List.cons_append]
  refine cons_lt_cons ?_ (leadByte_le less bound) fun same => ?_
  · unfold leadByte
    split_ifs <;> omega
  · obtain ⟨lengths, less⟩ := tail_lt_of_leadByte_eq less bound same
    rw [lengths]
    exact tailBytes_lt less bs cs

theorem flatMap_encodeChar_lt {cs ds : List Char} (less : cs < ds) :
    cs.flatMap String.utf8EncodeChar < ds.flatMap String.utf8EncodeChar := by
  induction cs generalizing ds with
  | nil =>
    cases ds with
    | nil => exact absurd less (List.lt_irrefl [])
    | cons d ds =>
      cases bytes : String.utf8EncodeChar d with
      | nil => exact absurd bytes String.utf8EncodeChar_ne_nil
      | cons b bs =>
        rw [List.flatMap_cons, bytes]
        exact List.nil_lt_cons _ _
  | cons c cs ih =>
    cases ds with
    | nil => exact absurd less (List.not_lt_nil _)
    | cons d ds =>
      rw [List.flatMap_cons, List.flatMap_cons]
      rcases List.cons_lt_cons_iff.mp less with lower | ⟨rfl, later⟩
      · exact encodeChar_lt_encodeChar lower _ _
      · exact List.append_left_lt (ih later)

theorem utf8_lt_utf8 {s t : String} (less : s < t) : utf8 s < utf8 t := by
  rw [utf8_eq, utf8_eq]
  exact flatMap_encodeChar_lt less

theorem utf8_lt_utf8_iff {s t : String} : utf8 s < utf8 t ↔ s < t := by
  refine ⟨fun less => ?_, utf8_lt_utf8⟩
  by_cases before : s < t
  · exact before
  · exfalso
    by_cases after : t < s
    · exact List.lt_irrefl _ (List.lt_trans less (utf8_lt_utf8 after))
    · rw [KeyOrder.eq_of_not_lt before after] at less
      exact List.lt_irrefl _ less

def Ascending (texts : List String) : Prop :=
  texts.Pairwise fun a b => utf8 a < utf8 b

theorem ascending_iff {texts : List String} : Ascending texts ↔ texts.Pairwise (· < ·) := by
  simp only [Ascending, utf8_lt_utf8_iff]

theorem Ascending.nodup {texts : List String} (ascending : Ascending texts) : texts.Nodup := by
  refine ascending.imp fun less same => ?_
  subst same
  exact List.lt_irrefl _ less

theorem Ascending.eq_of_mem_iff {texts texts' : List String} (ascending : Ascending texts)
    (ascending' : Ascending texts') (same : ∀ a, a ∈ texts ↔ a ∈ texts') : texts = texts' := by
  have perm : texts.Perm texts' := (List.perm_ext_iff_of_nodup ascending.nodup ascending'.nodup).mpr same
  refine perm.eq_of_pairwise (fun a b _ _ less more => ?_) ascending ascending'
  exact absurd (List.lt_trans less more) (List.lt_irrefl _)

end RowBase.Text
