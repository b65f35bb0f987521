namespace RowBase

/-- Of any two different keys, one comes before the other. -/
class KeyOrder (κ : Type) [LT κ] : Prop where
  irrefl (a : κ) : ¬a < a
  trans {a b c : κ} : a < b → b < c → a < c
  eq_of_not_lt {a b : κ} : ¬a < b → ¬b < a → a = b

theorem KeyOrder.of_isLinearOrder (κ : Type) [LT κ] [LE κ] [Std.IsLinearOrder κ] [Std.LawfulOrderLT κ] :
    KeyOrder κ where
  irrefl _ := Std.lt_irrefl
  trans := Std.lt_trans
  eq_of_not_lt {a b} h h' := by
    rcases Std.lt_trichotomy a b with h₁ | h₁ | h₁
    · exact absurd h₁ h
    · exact h₁
    · exact absurd h₁ h'

instance : KeyOrder String := .of_isLinearOrder String

instance : KeyOrder (List String) := .of_isLinearOrder (List String)

structure SortedMap (κ υ : Type) [LT κ] where
  entries : List (κ × υ)
  ascending : entries.Pairwise (·.1 < ·.1)

namespace SortedMap

variable {κ υ : Type} [LT κ] [DecidableLT κ] [KeyOrder κ]

def put (k : κ) (v : υ) : List (κ × υ) → List (κ × υ)
  | [] => [(k, v)]
  | (k₁, v₁) :: rest =>
    if k < k₁ then (k, v) :: (k₁, v₁) :: rest
    else if k₁ < k then (k₁, v₁) :: put k v rest
    else (k, v) :: rest

def lookup (k : κ) : List (κ × υ) → Option υ
  | [] => none
  | (k₁, v₁) :: rest => if k < k₁ ∨ k₁ < k then lookup k rest else some v₁

omit [KeyOrder κ] in
theorem mem_put {k : κ} {v : υ} {e : κ × υ} {l : List (κ × υ)} (h : e ∈ put k v l) : e = (k, v) ∨ e ∈ l := by
  induction l with
  | nil => simpa [put] using h
  | cons a rest ih =>
    simp only [put] at h
    split at h
    · simpa using h
    · split at h
      · rcases List.mem_cons.1 h with h | h
        · simp [h]
        · rcases ih h with h | h <;> simp [h]
      · rcases List.mem_cons.1 h with h | h <;> simp [h]

theorem ascending_put (k : κ) (v : υ) {l : List (κ × υ)} (h : l.Pairwise (·.1 < ·.1)) :
    (put k v l).Pairwise (·.1 < ·.1) := by
  induction l with
  | nil => simp [put]
  | cons a rest ih =>
    obtain ⟨ha, hr⟩ := List.pairwise_cons.1 h
    simp only [put]
    split
    · rename_i hk
      refine List.pairwise_cons.2 ⟨fun b hb => ?_, h⟩
      rcases List.mem_cons.1 hb with rfl | hb
      · exact hk
      · exact KeyOrder.trans hk (ha b hb)
    · split
      · rename_i hk
        refine List.pairwise_cons.2 ⟨fun b hb => ?_, ih hr⟩
        rcases mem_put hb with rfl | hb
        · exact hk
        · exact ha b hb
      · rename_i h₁ h₂
        have hk : k = a.1 := KeyOrder.eq_of_not_lt h₁ h₂
        exact List.pairwise_cons.2 ⟨fun b hb => hk ▸ ha b hb, hr⟩

omit [DecidableLT κ] [KeyOrder κ] in
@[ext]
theorem ext {m n : SortedMap κ υ} (h : m.entries = n.entries) : m = n := by
  cases m
  cases n
  simp_all

instance [DecidableEq κ] [DecidableEq υ] : DecidableEq (SortedMap κ υ) := fun m n =>
  decidable_of_iff (m.entries = n.entries) ⟨ext, fun h => h ▸ rfl⟩

def empty : SortedMap κ υ :=
  ⟨[], .nil⟩

def find? (m : SortedMap κ υ) (k : κ) : Option υ :=
  lookup k m.entries

def insert (m : SortedMap κ υ) (k : κ) (v : υ) : SortedMap κ υ :=
  ⟨put k v m.entries, ascending_put k v m.ascending⟩

def keys (m : SortedMap κ υ) : List κ :=
  m.entries.map (·.1)

omit [KeyOrder κ] in
@[simp]
theorem find?_empty (k : κ) : (empty : SortedMap κ υ).find? k = none := rfl

theorem lookup_put_self (k : κ) (v : υ) (l : List (κ × υ)) : lookup k (put k v l) = some v := by
  have irrefl := KeyOrder.irrefl k
  induction l with
  | nil => simp [put, lookup, irrefl]
  | cons a rest ih =>
    simp only [put]
    split
    · simp [lookup, irrefl]
    · split
      · rename_i h
        simp [lookup, h, ih]
      · simp [lookup, irrefl]

theorem lookup_put_ne {k k' : κ} (h : k ≠ k') (v : υ) (l : List (κ × υ)) :
    lookup k' (put k v l) = lookup k' l := by
  have apart : k' < k ∨ k < k' := by
    by_cases h₁ : k' < k
    · exact .inl h₁
    · exact .inr (Classical.not_not.1 fun h₂ => h (KeyOrder.eq_of_not_lt h₂ h₁))
  induction l with
  | nil => simp [put, lookup, apart]
  | cons a rest ih =>
    simp only [put]
    split
    · simp [lookup, apart]
    · split
      · simp [lookup, ih]
      · rename_i h₁ h₂
        have : k = a.1 := KeyOrder.eq_of_not_lt h₁ h₂
        subst this
        simp [lookup, apart]

theorem find?_insert_self (m : SortedMap κ υ) (k : κ) (v : υ) : (m.insert k v).find? k = some v :=
  lookup_put_self k v m.entries

theorem find?_insert_ne (m : SortedMap κ υ) {k k' : κ} (h : k ≠ k') (v : υ) :
    (m.insert k v).find? k' = m.find? k' :=
  lookup_put_ne h v m.entries

end SortedMap

end RowBase
