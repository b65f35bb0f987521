import RowBase.SortedMap

namespace RowBase

/-- The names that lead from the top directory to a place, and how many they are. -/
structure Place where
  names : List String
  depth : Nat
  depth_eq : depth = names.length
  deriving DecidableEq

namespace Place

def ofNames (names : List String) : Place :=
  ⟨names, names.length, rfl⟩

instance : LT Place :=
  ⟨fun a b => a.depth < b.depth ∨ a.depth = b.depth ∧ a.names < b.names⟩

instance : DecidableLT Place := fun a b =>
  if h : a.depth < b.depth then isTrue (.inl h)
  else if he : a.depth = b.depth then
    if hn : a.names < b.names then isTrue (.inr ⟨he, hn⟩)
    else isFalse fun hab => hab.elim h fun hr => hn hr.2
  else isFalse fun hab => hab.elim h fun hr => he hr.1

theorem ext_names {a b : Place} (h : a.names = b.names) : a = b := by
  rcases a with ⟨ns, d, hd⟩
  rcases b with ⟨ms, e, he⟩
  subst hd he
  have h : ns = ms := h
  subst h
  rfl

instance : KeyOrder Place where
  irrefl a h := by
    rcases h with h | h
    · exact Nat.lt_irrefl _ h
    · exact KeyOrder.irrefl a.names h.2
  trans {a b c} hab hbc := by
    rcases hab with hab | ⟨eab, nab⟩ <;> rcases hbc with hbc | ⟨ebc, nbc⟩
    · exact .inl (Nat.lt_trans hab hbc)
    · exact .inl (ebc ▸ hab)
    · exact .inl (eab ▸ hbc)
    · exact .inr ⟨eab.trans ebc, KeyOrder.trans nab nbc⟩
  eq_of_not_lt {a b} hab hba := by
    have depths : a.depth = b.depth :=
      Nat.le_antisymm (Nat.le_of_not_lt fun h => hba (.inl h)) (Nat.le_of_not_lt fun h => hab (.inl h))
    exact ext_names (KeyOrder.eq_of_not_lt (fun h => hab (.inr ⟨depths, h⟩)) fun h => hba (.inr ⟨depths.symm, h⟩))

theorem ofNames_inj {ns ms : List String} : ofNames ns = ofNames ms ↔ ns = ms :=
  ⟨fun h => congrArg names h, fun h => h ▸ rfl⟩

end Place

end RowBase
