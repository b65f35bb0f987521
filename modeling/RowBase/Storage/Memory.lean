import RowBase.SortedMap
import RowBase.Storage.Basic

namespace RowBase

structure Memory where
  spaces : SortedMap String (SortedMap String Bytes)
  deriving DecidableEq

namespace Memory

def empty : Memory :=
  ⟨.empty⟩

def find? (m : Memory) (space key : String) : Option Bytes :=
  (m.spaces.find? space).bind (·.find? key)

def insert (m : Memory) (space key : String) (bs : Bytes) : Memory :=
  ⟨m.spaces.insert space (((m.spaces.find? space).getD .empty).insert key bs)⟩

def keys (m : Memory) (space : String) : List String :=
  ((m.spaces.find? space).map (·.keys)).getD []

/-- Names are checked by writes only. -/
instance : Storage Memory where
  write m space key bs :=
    match checkName space, checkName key with
    | .error e, _ => (.error e, m)
    | _, .error e => (.error e, m)
    | .ok (), .ok () => (.ok (), m.insert space key bs)
  read m space key := .ok (m.find? space key)
  keys m space := .ok (m.keys space)

theorem find?_insert_self (m : Memory) (space key : String) (bs : Bytes) :
    (m.insert space key bs).find? space key = some bs := by
  simp [find?, insert, SortedMap.find?_insert_self]

theorem find?_insert_ne (m : Memory) {space key space' key' : String}
    (h : space ≠ space' ∨ key ≠ key') (bs : Bytes) :
    (m.insert space key bs).find? space' key' = m.find? space' key' := by
  by_cases hs : space = space'
  · subst hs
    have hk : key ≠ key' := by simpa using h
    cases hm : m.spaces.find? space <;>
      simp [find?, insert, SortedMap.find?_insert_self, SortedMap.find?_insert_ne _ hk, hm]
  · simp [find?, insert, SortedMap.find?_insert_ne _ hs]

end Memory

end RowBase
