import RowBase.Storage.Memory

namespace RowBase

namespace SortedMap

variable {κ υ : Type} [LT κ] [DecidableLT κ] [KeyOrder κ]

theorem lookup_eq_some_iff {l : List (κ × υ)} (ascending : l.Pairwise (·.1 < ·.1)) {k : κ} {v : υ} :
    lookup k l = some v ↔ (k, v) ∈ l := by
  induction l with
  | nil => simp [lookup]
  | cons e l ih =>
    rcases e with ⟨k₁, v₁⟩
    obtain ⟨first, others⟩ := List.pairwise_cons.mp ascending
    rw [lookup]
    by_cases apart : k < k₁ ∨ k₁ < k
    · have other : (k, v) ≠ (k₁, v₁) := by
        intro h
        cases h
        rcases apart with h | h <;> exact KeyOrder.irrefl _ h
      rw [if_pos apart, ih others, List.mem_cons, or_iff_right other]
    · have same : k = k₁ := KeyOrder.eq_of_not_lt (fun h => apart (.inl h)) fun h => apart (.inr h)
      subst same
      have once : (k, v) ∉ l := fun member => KeyOrder.irrefl k (first _ member)
      rw [if_neg apart, List.mem_cons, or_iff_left once]
      simp [eq_comm]

theorem find?_eq_some_iff (m : SortedMap κ υ) {k : κ} {v : υ} : m.find? k = some v ↔ (k, v) ∈ m.entries :=
  lookup_eq_some_iff m.ascending

theorem mem_keys_iff (m : SortedMap κ υ) {k : κ} : k ∈ m.keys ↔ ∃ v, m.find? k = some v := by
  simp [keys, find?_eq_some_iff]

theorem map_put_of_mem {l : List (κ × υ)} (ascending : l.Pairwise (·.1 < ·.1)) {k : κ} {v : υ} (member : (k, v) ∈ l)
    (v' : υ) : (put k v' l).map (·.1) = l.map (·.1) := by
  induction l with
  | nil => simp at member
  | cons e l ih =>
    rcases e with ⟨k₁, v₁⟩
    obtain ⟨first, others⟩ := List.pairwise_cons.mp ascending
    rw [put]
    rcases List.mem_cons.mp member with same | later
    · cases same
      simp [KeyOrder.irrefl]
    · have less : k₁ < k := first _ later
      have notMore : ¬k < k₁ := fun more => KeyOrder.irrefl k (KeyOrder.trans more less)
      rw [if_neg notMore, if_pos less, List.map_cons, List.map_cons, ih others later]

theorem keys_insert_of_find? {m : SortedMap κ υ} {k : κ} {v : υ} (found : m.find? k = some v) (v' : υ) :
    (m.insert k v').keys = m.keys :=
  map_put_of_mem m.ascending (m.find?_eq_some_iff.mp found) v'

theorem eq_of_find? {m n : SortedMap κ υ} (same : ∀ k, m.find? k = n.find? k) : m = n := by
  have once (l : SortedMap κ υ) : l.entries.Nodup := by
    refine l.ascending.imp fun less same => ?_
    rw [same] at less
    exact KeyOrder.irrefl _ less
  have members (e : κ × υ) : e ∈ m.entries ↔ e ∈ n.entries := by
    rw [← find?_eq_some_iff, ← find?_eq_some_iff, same]
  have perm : m.entries.Perm n.entries := (List.perm_ext_iff_of_nodup (once m) (once n)).mpr members
  refine ext (perm.eq_of_pairwise (fun a b _ _ less more => ?_) m.ascending n.ascending)
  exact absurd (KeyOrder.trans less more) (KeyOrder.irrefl _)

theorem insert_insert_self (m : SortedMap κ υ) (k : κ) (v v' : υ) : (m.insert k v).insert k v' = m.insert k v' := by
  refine eq_of_find? fun j => ?_
  by_cases same : k = j
  · subst same
    rw [find?_insert_self, find?_insert_self]
  · rw [find?_insert_ne _ same, find?_insert_ne _ same, find?_insert_ne _ same]

theorem insert_comm (m : SortedMap κ υ) {k k' : κ} (apart : k ≠ k') (v v' : υ) :
    (m.insert k v).insert k' v' = (m.insert k' v').insert k v := by
  refine eq_of_find? fun j => ?_
  by_cases first : k = j
  · subst first
    rw [find?_insert_ne _ apart.symm, find?_insert_self, find?_insert_self]
  · rw [find?_insert_ne _ first]
    by_cases second : k' = j
    · subst second
      rw [find?_insert_self, find?_insert_self]
    · rw [find?_insert_ne _ second, find?_insert_ne _ second, find?_insert_ne _ first]

omit [DecidableLT κ] [KeyOrder κ] in
theorem pairwise_keys (m : SortedMap κ υ) : m.keys.Pairwise (· < ·) :=
  List.pairwise_map.mpr m.ascending

end SortedMap

abbrev Units (α : Type) :=
  (space key : String) → Option α

namespace Units

variable {α : Type}

def empty : Units α := fun _ _ => none

def set (u : Units α) (space key : String) (a : α) : Units α := fun space' key' =>
  if space' = space ∧ key' = key then some a else u space' key'

theorem set_self (u : Units α) (space key : String) (a : α) : u.set space key a space key = some a :=
  if_pos ⟨rfl, rfl⟩

theorem set_of_ne (u : Units α) {space key space' key' : String} (apart : ¬(space' = space ∧ key' = key))
    (a : α) : u.set space key a space' key' = u space' key' :=
  if_neg apart

theorem set_eq_some {u : Units α} {space key space' key' : String} {a a' : α}
    (found : u.set space key a space' key' = some a') :
    (space' = space ∧ key' = key ∧ a' = a) ∨ u space' key' = some a' := by
  by_cases same : space' = space ∧ key' = key
  · obtain ⟨rfl, rfl⟩ := same
    rw [set_self] at found
    cases found
    exact .inl ⟨rfl, rfl, rfl⟩
  · rw [set_of_ne u same] at found
    exact .inr found

end Units

/-- An engine that holds the last bytes written. -/
class LawfulStorage (σ : Type) [Storage σ] where
  /-- The units that the engine holds, whether or not it can list and read them. -/
  units : σ → Units Bytes
  units_of_read {store : σ} {space key : String} {bs : Bytes}
    (read : Storage.read store space key = .ok (some bs)) : units store space key = some bs
  units_of_write {store store' : σ} {space key : String} {bs : Bytes}
    (written : Storage.write store space key bs = (.ok (), store')) :
    units store' = (units store).set space key bs
  units_of_refused {store store' : σ} {space key : String} {bs : Bytes} {e : Error}
    (refused : Storage.write store space key bs = (.error e, store')) : units store' = units store
  read_of_write {store store' : σ} {space key : String} {bs : Bytes}
    (written : Storage.write store space key bs = (.ok (), store')) :
    Storage.read store' space key = .ok (some bs)
  listed_of_write {store store' : σ} {space key : String} {bs : Bytes}
    (written : Storage.write store space key bs = (.ok (), store')) :
    ∃ keys, Storage.keys store' space = .ok keys ∧ key ∈ keys

namespace Memory

theorem find?_insert (m : Memory) (space key : String) (bs : Bytes) :
    (m.insert space key bs).find? = Units.set m.find? space key bs := by
  funext space' key'
  by_cases same : space' = space ∧ key' = key
  · obtain ⟨rfl, rfl⟩ := same
    rw [find?_insert_self, Units.set_self]
  · have apart : space ≠ space' ∨ key ≠ key' := by
      by_cases spaces : space = space'
      · exact .inr fun keys => same ⟨spaces.symm, keys.symm⟩
      · exact .inl spaces
    rw [find?_insert_ne m apart, Units.set_of_ne _ same]

theorem insert_comm (m : Memory) {space key space' key' : String} (apart : ¬(space = space' ∧ key = key'))
    (bs bs' : Bytes) :
    (m.insert space key bs).insert space' key' bs' = (m.insert space' key' bs').insert space key bs := by
  by_cases same : space = space'
  · subst same
    have keys : key ≠ key' := fun h => apart ⟨rfl, h⟩
    simp only [insert, SortedMap.find?_insert_self, SortedMap.insert_insert_self, Option.getD_some,
      SortedMap.insert_comm _ keys]
  · have spaces : space' ≠ space := Ne.symm same
    simp only [insert, SortedMap.find?_insert_ne _ same, SortedMap.find?_insert_ne _ spaces,
      SortedMap.insert_comm _ same]

theorem mem_keys_iff (m : Memory) {space key : String} :
    key ∈ m.keys space ↔ ∃ bs, m.find? space key = some bs := by
  cases found : m.spaces.find? space with
  | none => simp [keys, find?, found]
  | some units => simp [keys, find?, found, SortedMap.mem_keys_iff]

theorem pairwise_keys (m : Memory) (space : String) : (m.keys space).Pairwise (· < ·) := by
  cases found : m.spaces.find? space with
  | none => simp [keys, found]
  | some units => simpa [keys, found] using units.pairwise_keys

theorem keys_insert_of_find? {m : Memory} {space key : String} {bs : Bytes} (found : m.find? space key = some bs)
    (bs' : Bytes) (space' : String) : (m.insert space key bs').keys space' = m.keys space' := by
  by_cases same : space = space'
  · subst same
    rw [find?] at found
    cases inside : m.spaces.find? space with
    | none => simp [inside] at found
    | some units =>
      have found : units.find? key = some bs := by simpa [inside] using found
      simp [keys, insert, SortedMap.find?_insert_self, inside, SortedMap.keys_insert_of_find? found]
  · simp [keys, insert, SortedMap.find?_insert_ne _ same]

theorem write_eq_ok_iff {m m' : Memory} {space key : String} {bs : Bytes} :
    Storage.write m space key bs = (.ok (), m') ↔
      isUnitName space = true ∧ isUnitName key = true ∧ m' = m.insert space key bs := by
  simp only [Storage.write, checkName]
  by_cases spaceName : isUnitName space = true
  · by_cases keyName : isUnitName key = true
    · simp [spaceName, keyName, eq_comm]
    · simp [spaceName, keyName]
  · simp [spaceName]

theorem eq_of_refused {m m' : Memory} {space key : String} {bs : Bytes} {e : Error}
    (refused : Storage.write m space key bs = (.error e, m')) : m' = m := by
  simp only [Storage.write] at refused
  split at refused
  · exact (congrArg Prod.snd refused).symm
  · exact (congrArg Prod.snd refused).symm
  · simp at refused

instance : LawfulStorage Memory where
  units m := m.find?
  units_of_read read := by simpa [Storage.read] using read
  units_of_write written := by
    obtain ⟨-, -, rfl⟩ := write_eq_ok_iff.mp written
    exact find?_insert _ _ _ _
  units_of_refused refused := by rw [eq_of_refused refused]
  read_of_write written := by
    obtain ⟨-, -, rfl⟩ := write_eq_ok_iff.mp written
    exact congrArg _ (find?_insert_self _ _ _ _)
  listed_of_write written := by
    obtain ⟨-, -, rfl⟩ := write_eq_ok_iff.mp written
    exact ⟨_, rfl, (mem_keys_iff _).mpr ⟨_, find?_insert_self _ _ _ _⟩⟩

end Memory

end RowBase
