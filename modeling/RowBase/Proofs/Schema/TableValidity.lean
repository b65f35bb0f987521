import Mathlib.Data.List.Nodup
import RowBase.Schema.Table

namespace RowBase

section Lists

theorem firstRepeated_eq_none_iff {seen names : List String} :
    firstRepeated seen names = none ↔ names.Nodup ∧ ∀ n ∈ names, n ∉ seen := by
  induction names generalizing seen with
  | nil => simp [firstRepeated]
  | cons n names ih =>
    rw [firstRepeated]
    by_cases before : n ∈ seen
    · simp [before]
    · rw [if_neg before, ih, List.nodup_cons, List.forall_mem_cons]
      simp only [List.mem_cons, not_or]
      constructor
      · intro h
        obtain ⟨others, apart⟩ := h
        exact ⟨⟨fun member => (apart n member).1 rfl, others⟩, before, fun m member => (apart m member).2⟩
      · intro h
        obtain ⟨⟨once, others⟩, -, apart⟩ := h
        refine ⟨others, fun m member => ⟨?_, apart m member⟩⟩
        intro same
        exact once (same ▸ member)

theorem firstRepeated_eq_some_iff {seen names : List String} {c : String} :
    firstRepeated seen names = some c ↔ ∃ before after, names = before ++ c :: after ∧ before.Nodup ∧
      (∀ n ∈ before, n ∉ seen) ∧ (c ∈ seen ∨ c ∈ before) := by
  induction names generalizing seen with
  | nil => simp [firstRepeated]
  | cons n names ih =>
    rw [firstRepeated]
    by_cases known : n ∈ seen
    · rw [if_pos known]
      constructor
      · rintro ⟨⟩
        exact ⟨[], names, rfl, .nil, by simp, .inl known⟩
      · intro h
        obtain ⟨before, after, split, -, apart, -⟩ := h
        rcases List.cons_eq_append_iff.mp split with ⟨rfl, head⟩ | ⟨others, rfl, -⟩
        · cases head
          rfl
        · exact absurd known (apart n (by simp))
    · rw [if_neg known, ih]
      constructor
      · intro h
        obtain ⟨before, after, rfl, distinct, apart, again⟩ := h
        simp only [List.mem_cons, not_or] at apart
        have fresh : n ∉ before := fun member => (apart n member).1 rfl
        refine ⟨n :: before, after, rfl, distinct.cons fresh, ?_, ?_⟩
        · intro m member
          rcases List.mem_cons.mp member with rfl | member
          · exact known
          · exact (apart m member).2
        · rcases again with again | again
          · rcases List.mem_cons.mp again with rfl | again
            · simp
            · exact .inl again
          · exact .inr (by simp [again])
      · intro h
        obtain ⟨before, after, split, distinct, apart, again⟩ := h
        rcases List.cons_eq_append_iff.mp split with ⟨rfl, head⟩ | ⟨others, rfl, rfl⟩
        · cases head
          simp [known] at again
        · obtain ⟨fresh, distinct⟩ := List.nodup_cons.mp distinct
          refine ⟨others, after, rfl, distinct, fun m member => ?_, ?_⟩
          · simp only [List.mem_cons, not_or]
            refine ⟨?_, apart m (by simp [member])⟩
            rintro rfl
            exact fresh member
          · simp only [List.mem_cons] at again ⊢
            tauto

theorem countP_le_one_iff {α : Type} {p : α → Bool} {as : List α} :
    as.countP p ≤ 1 ↔ as.Pairwise fun a b => ¬(p a = true ∧ p b = true) := by
  induction as with
  | nil => simp
  | cons a as ih =>
    rw [List.countP_cons, List.pairwise_cons, ← ih]
    by_cases holds : p a = true
    · have none : as.countP p = 0 ↔ ∀ b ∈ as, ¬p b = true := List.countP_eq_zero
      simp only [holds, if_true, true_and, ← none]
      omega
    · simp [holds]

end Lists

namespace Table

variable {t : Table}

def KeyedOnce (t : Table) : Prop :=
  t.constraints.Pairwise fun k k' => ¬(k.primaryKey = true ∧ k'.primaryKey = true)

/-- A valid table has columns, of different names, constraints on these columns only, and no two primary keys. -/
structure Valid (t : Table) : Prop where
  filled : t.columns ≠ []
  distinct : t.columnNames.Nodup
  known : ∀ k ∈ t.constraints, k.column ∈ t.columnNames
  oneKey : t.KeyedOnce

/-- The first condition that a table breaks, with the first column whose name was there before it, or the first
constraint on a column that is not there. -/
inductive FirstFault (t : Table) : TableFault → Prop
  | noColumns (empty : t.columns = []) : FirstFault t .noColumns
  | duplicateColumn {before after : List Column} {c : Column} (split : t.columns = before ++ c :: after)
      (distinct : (before.map (·.name)).Nodup) (again : ∃ d ∈ before, d.name = c.name) :
      FirstFault t (.duplicateColumn c.name)
  | unknownColumn {before after : List Constraint} {k : Constraint} (filled : t.columns ≠ [])
      (distinct : t.columnNames.Nodup) (split : t.constraints = before ++ k :: after)
      (known : ∀ k' ∈ before, k'.column ∈ t.columnNames) (unknown : k.column ∉ t.columnNames) :
      FirstFault t (.unknownColumn k.name k.column)
  | manyPrimaryKeys (filled : t.columns ≠ []) (distinct : t.columnNames.Nodup)
      (known : ∀ k ∈ t.constraints, k.column ∈ t.columnNames)
      (many : ¬t.KeyedOnce) : FirstFault t .manyPrimaryKeys

theorem keyedOnce_iff : t.KeyedOnce ↔ t.constraints.countP (·.primaryKey) ≤ 1 :=
  countP_le_one_iff.symm

theorem repeated_eq_none_iff : firstRepeated [] t.columnNames = none ↔ t.columnNames.Nodup := by
  simp [firstRepeated_eq_none_iff]

theorem repeated_eq_some_iff {name : String} : firstRepeated [] t.columnNames = some name ↔
    ∃ before c after, t.columns = before ++ c :: after ∧ (before.map (·.name)).Nodup ∧
      (∃ d ∈ before, d.name = c.name) ∧ c.name = name := by
  rw [firstRepeated_eq_some_iff]
  constructor
  · intro h
    obtain ⟨before, after, split, distinct, -, again⟩ := h
    obtain ⟨earlier, others, parts, rfl, rest⟩ := List.map_eq_append_iff.mp split
    obtain ⟨c, later, rfl, named, -⟩ := List.map_eq_cons_iff.mp rest
    refine ⟨earlier, c, later, parts, distinct, ?_, named⟩
    rw [← named] at again
    simpa using again
  · intro h
    obtain ⟨before, c, after, parts, distinct, again, rfl⟩ := h
    exact ⟨before.map (·.name), after.map (·.name), by simp [columnNames, parts], distinct, by simp,
      .inr (List.mem_map.mpr again)⟩

theorem unknown_eq_some_iff {k : Constraint} :
    t.constraints.find? (fun k => !t.columnNames.contains k.column) = some k ↔
      ∃ before after, t.constraints = before ++ k :: after ∧ (∀ k' ∈ before, k'.column ∈ t.columnNames) ∧
        k.column ∉ t.columnNames := by
  simp only [List.find?_eq_some_iff_append, Bool.not_not, List.contains_eq_mem, Bool.not_eq_true',
    decide_eq_false_iff_not, decide_eq_true_eq]
  constructor
  · intro h
    obtain ⟨unknown, before, after, split, known⟩ := h
    exact ⟨before, after, split, known, unknown⟩
  · intro h
    obtain ⟨before, after, split, known, unknown⟩ := h
    exact ⟨unknown, before, after, split, known⟩

theorem unknown_eq_none_iff : t.constraints.find? (fun k => !t.columnNames.contains k.column) = none ↔
    ∀ k ∈ t.constraints, k.column ∈ t.columnNames := by
  simp

theorem fault?_of_valid (valid : t.Valid) : t.fault? = none := by
  have once := repeated_eq_none_iff.mpr valid.distinct
  have few := Nat.not_lt.mpr (keyedOnce_iff.mp valid.oneKey)
  rw [fault?, if_neg valid.filled, once]
  dsimp only
  rw [unknown_eq_none_iff.mpr valid.known]
  dsimp only
  rw [if_neg few]

theorem fault?_of_firstFault {f : TableFault} (fault : t.FirstFault f) : t.fault? = some f := by
  cases fault with
  | noColumns empty => rw [fault?, if_pos empty]
  | duplicateColumn split distinct again =>
    have filled : t.columns ≠ [] := by simp [split]
    rw [fault?, if_neg filled, repeated_eq_some_iff.mpr ⟨_, _, _, split, distinct, again, rfl⟩]
  | unknownColumn filled distinct split known unknown =>
    have once := repeated_eq_none_iff.mpr distinct
    rw [fault?, if_neg filled, once]
    dsimp only
    rw [unknown_eq_some_iff.mpr ⟨_, _, split, known, unknown⟩]
  | manyPrimaryKeys filled distinct known many =>
    have once := repeated_eq_none_iff.mpr distinct
    have several := Nat.not_le.mp (mt keyedOnce_iff.mpr many)
    rw [fault?, if_neg filled, once]
    dsimp only
    rw [unknown_eq_none_iff.mpr known]
    dsimp only
    rw [if_pos several]

theorem valid_or_firstFault (t : Table) : t.Valid ∨ ∃ f, t.FirstFault f := by
  by_cases empty : t.columns = []
  · exact .inr ⟨_, .noColumns empty⟩
  cases repeated : firstRepeated [] t.columnNames with
  | some name =>
    obtain ⟨before, c, after, split, distinct, again, -⟩ := repeated_eq_some_iff.mp repeated
    exact .inr ⟨_, .duplicateColumn split distinct again⟩
  | none =>
    have distinct := repeated_eq_none_iff.mp repeated
    cases unknown : t.constraints.find? fun k => !t.columnNames.contains k.column with
    | some k =>
      obtain ⟨before, after, split, known, unknown⟩ := unknown_eq_some_iff.mp unknown
      exact .inr ⟨_, .unknownColumn empty distinct split known unknown⟩
    | none =>
      have known := unknown_eq_none_iff.mp unknown
      by_cases oneKey : t.KeyedOnce
      · exact .inl ⟨empty, distinct, known, oneKey⟩
      · exact .inr ⟨_, .manyPrimaryKeys empty distinct known oneKey⟩

theorem fault?_eq_none_iff : t.fault? = none ↔ t.Valid := by
  refine ⟨fun sound => ?_, fault?_of_valid⟩
  rcases t.valid_or_firstFault with valid | ⟨f, fault⟩
  · exact valid
  · rw [fault?_of_firstFault fault] at sound
    cases sound

theorem fault?_eq_some_iff {f : TableFault} : t.fault? = some f ↔ t.FirstFault f := by
  refine ⟨fun found => ?_, fault?_of_firstFault⟩
  rcases t.valid_or_firstFault with valid | ⟨f', fault⟩
  · rw [fault?_of_valid valid] at found
    cases found
  · rw [fault?_of_firstFault fault] at found
    cases found
    exact fault

theorem validate_eq_ok_iff : t.validate = .ok () ↔ t.Valid := by
  rw [← fault?_eq_none_iff, validate]
  cases t.fault? <;> simp

theorem validate_eq_error_iff {e : Error} :
    t.validate = .error e ↔ ∃ f, t.FirstFault f ∧ e = .invalidTable t.name f := by
  simp only [← fault?_eq_some_iff, validate]
  cases t.fault? <;> simp [eq_comm]

theorem columnNames_ne_nil (valid : t.validate = .ok ()) : t.columnNames ≠ [] := fun none =>
  (validate_eq_ok_iff.mp valid).filled (List.map_eq_nil_iff.mp none)

theorem nodup_columnNames (valid : t.validate = .ok ()) : t.columnNames.Nodup :=
  (validate_eq_ok_iff.mp valid).distinct

theorem Valid.column?_eq_some (valid : t.Valid) {c : Column} (member : c ∈ t.columns) : t.column? c.name = some c := by
  cases found : t.column? c.name with
  | none => simpa using List.find?_eq_none.mp found c member
  | some d =>
    have same : d.name = c.name := by simpa using List.find?_some found
    rw [List.inj_on_of_nodup_map valid.distinct (List.mem_of_find?_eq_some found) member same]

theorem Valid.primaryKey_unique (valid : t.Valid) {k : Constraint} (member : k ∈ t.constraints)
    (key : k.primaryKey = true) : t.constraints.filter (·.primaryKey) = [k] := by
  have among : k ∈ t.constraints.filter (·.primaryKey) := List.mem_filter.mpr ⟨member, key⟩
  have one : (t.constraints.filter (·.primaryKey)).length = 1 := by
    have few := keyedOnce_iff.mp valid.oneKey
    have some := List.length_pos_of_mem among
    rw [← List.countP_eq_length_filter] at some ⊢
    exact Nat.le_antisymm few some
  obtain ⟨k', alone⟩ := List.length_eq_one_iff.mp one
  rw [alone, List.mem_singleton] at among
  rw [alone, among]

theorem Valid.primaryKey?_eq_some (valid : t.Valid) {k : Constraint} (member : k ∈ t.constraints)
    (key : k.primaryKey = true) : t.primaryKey? = some k := by
  rw [primaryKey?, ← List.head?_filter, valid.primaryKey_unique member key]
  rfl

theorem Valid.exists_column (valid : t.Valid) {k : Constraint} (member : k ∈ t.constraints) :
    ∃ c ∈ t.columns, t.column? k.column = some c := by
  obtain ⟨c, among, named⟩ := List.mem_map.mp (valid.known k member)
  rw [← named]
  exact ⟨c, among, valid.column?_eq_some among⟩

end Table

end RowBase
