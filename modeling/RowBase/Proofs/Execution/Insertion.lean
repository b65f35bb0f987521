import Mathlib.Data.List.Forall2
import RowBase.Execution

namespace RowBase

theorem Except.mapM_eq_ok_iff {ε α β : Type} {f : α → Except ε β} {as : List α} {bs : List β} :
    as.mapM f = .ok bs ↔ List.Forall₂ (fun a b => f a = .ok b) as bs := by
  induction as generalizing bs with
  | nil => simp [pure, Except.pure, eq_comm]
  | cons a as ih =>
    rw [List.mapM_cons, List.forall₂_cons_left_iff]
    simp only [← ih]
    cases first : f a with
    | error e => simp [bind, Except.bind]
    | ok b =>
      cases others : as.mapM f with
      | error e => simp [bind, Except.bind]
      | ok rest => simp [bind, Except.bind, pure, Except.pure, eq_comm]

namespace Value

theorem type_ofLiteral {type : DataType} {literal : String} {v : Value} (read : ofLiteral type literal = .ok v) :
    v.type = type := by
  unfold ofLiteral at read
  dsimp only at read
  split at read
  · cases value : bool? literal <;> simp [value] at read
    subst read
    rfl
  · cases value : int64? literal <;> simp [value] at read
    subst read
    rfl
  · cases value : Binary64.ofText? literal <;> simp [value] at read
    subst read
    rfl
  · cases read
    rfl
  · cases value : Timestamp.ofLiteral? literal <;> simp [value] at read
    subst read
    rfl
  · simp at read
  · split at read
    · cases read
      rfl
    · simp at read

end Value

namespace Table

/-- The field that a literal makes in a column: a null one where the word and a constraint allow it, else one
with the value of the literal. -/
inductive Coerces (t : Table) (name literal : String) : Field → Prop
  | null {c : Column} {k : Constraint} (column : t.column? name = some c) (constraint : t.constraint? name = some k)
      (word : Text.sameLetters literal "null" = true) : Coerces t name literal (.null c.name c.type)
  | value {c : Column} {v : Value} (column : t.column? name = some c)
      (other : Text.sameLetters literal "null" = false) (read : Value.ofLiteral c.type literal = .ok v) :
      Coerces t name literal (.ofValue c.name c.type v)

theorem coerceField_eq_ok_iff {t : Table} {name literal : String} {f : Field} :
    t.coerceField name literal = .ok f ↔ t.Coerces name literal f := by
  constructor
  · intro coerced
    unfold coerceField at coerced
    split at coerced
    · simp at coerced
    · rename_i c column
      by_cases word : Text.sameLetters literal "null" = true
      · rw [if_pos word] at coerced
        split at coerced
        · cases coerced
          exact .null column ‹_› word
        · simp at coerced
      · rw [if_neg word] at coerced
        cases read : Value.ofLiteral c.type literal with
        | error e => simp [read, Except.map] at coerced
        | ok v =>
          simp only [read, Except.map, Except.ok.injEq] at coerced
          subst coerced
          exact .value column (by simpa using word) read
  · intro h
    rcases h with ⟨column, constraint, word⟩ | ⟨column, other, read⟩
    · simp [coerceField, column, constraint, word]
    · simp [coerceField, column, other, read, Except.map]

theorem coerce_eq_ok_iff {t : Table} {names literals : List String} {fields : List Field} :
    t.coerce names literals = .ok fields ↔ names.length = literals.length ∧
      List.Forall₂ (fun nl f => t.Coerces nl.1 nl.2 f) (names.zip literals) fields := by
  unfold coerce
  by_cases same : names.length = literals.length
  · rw [if_pos same, Except.mapM_eq_ok_iff]
    simp [same, coerceField_eq_ok_iff]
  · simp [same]

theorem name_of_column? {t : Table} {name : String} {c : Column} (column : t.column? name = some c) :
    c.name = name := by
  simpa using List.find?_some column

theorem column?_isSome_iff {t : Table} {name : String} : (t.column? name).isSome ↔ name ∈ t.columnNames := by
  simp [column?, columnNames, List.find?_isSome]

theorem Coerces.name_eq {t : Table} {name literal : String} {f : Field} (coerces : t.Coerces name literal f) :
    f.name = name := by
  cases coerces with
  | null column => exact name_of_column? column
  | value column => exact name_of_column? column

theorem names_of_coerce {t : Table} {names literals : List String} {fields : List Field}
    (coerced : t.coerce names literals = .ok fields) : fields.map (·.name) = names := by
  obtain ⟨counts, each⟩ := coerce_eq_ok_iff.mp coerced
  have named : List.Forall₂ (· = ·) ((names.zip literals).map Prod.fst) (fields.map (·.name)) := by
    rw [List.forall₂_map_left_iff, List.forall₂_map_right_iff]
    exact each.imp fun _ _ coerces => coerces.name_eq.symm
  rw [List.forall₂_eq_eq_eq, List.map_fst_zip (Nat.le_of_eq counts)] at named
  exact named.symm

/-- The identity and the fields of a row: the key that the fields give, or one that is made up and put last. -/
inductive Identifies (t : Table) (fields : List Field) (fresh : Identifier) : String → List Field → Prop
  | unkeyed (free : t.primaryKey? = none) : Identifies t fields fresh fresh.text fields
  | supplied {k : Constraint} {f : Field} (key : t.primaryKey? = some k)
      (found : fields.find? (·.name == k.column) = some f) (solid : f.isNull = false) :
      Identifies t fields fresh f.value.text fields
  | synthesized {k : Constraint} {c : Column} {v : Value} (key : t.primaryKey? = some k)
      (absent : ∀ f ∈ fields, f.name ≠ k.column) (column : t.column? k.column = some c)
      (made : c.type = .uuid ∧ v = .uuid fresh ∨ c.type = .string ∧ v = .string fresh.text) :
      Identifies t fields fresh fresh.text (fields ++ [.ofValue k.column c.type v])

theorem freshKey_eq_ok_iff {fresh : Identifier} {type : DataType} {v : Value} :
    freshKey fresh type = .ok v ↔ type = .uuid ∧ v = .uuid fresh ∨ type = .string ∧ v = .string fresh.text := by
  cases type <;> simp [freshKey, eq_comm]

theorem identify_eq_ok_iff {t : Table} {fields fields' : List Field} {fresh : Identifier} {identity : String} :
    t.identify fields fresh = .ok (identity, fields') ↔ t.Identifies fields fresh identity fields' := by
  constructor
  · intro identified
    unfold identify at identified
    split at identified
    · cases identified
      exact .unkeyed ‹_›
    · rename_i k key
      split at identified
      · rename_i f found
        cases null : f.isNull with
        | true => simp [Field.value?, null] at identified
        | false =>
          simp only [Field.value?, null, Bool.false_eq_true, if_false, Except.ok.injEq, Prod.mk.injEq] at identified
          obtain ⟨rfl, rfl⟩ := identified
          exact .supplied key found null
      · rename_i absent
        split at identified
        · simp at identified
        · rename_i c column
          cases made : freshKey fresh c.type with
          | error e => simp [made, Except.map] at identified
          | ok v =>
            simp only [made, Except.map, Except.ok.injEq, Prod.mk.injEq] at identified
            obtain ⟨rfl, rfl⟩ := identified
            rw [name_of_column? column]
            refine .synthesized key (fun f member => ?_) column (freshKey_eq_ok_iff.mp made)
            simpa using List.find?_eq_none.mp absent f member
  · intro h
    rcases h with free | ⟨key, found, solid⟩ | ⟨key, absent, column, made⟩
    · simp [identify, free]
    · simp [identify, key, found, Field.value?, solid]
    · have none : fields.find? (·.name == _) = none := List.find?_eq_none.mpr fun f member => by
        simpa using absent f member
      simp [identify, key, none, column, freshKey_eq_ok_iff.mpr made, Except.map, name_of_column? column]

end Table

theorem Database.name_of_table? {db : Database} {name : String} {t : Table} (table : db.table? name = some t) :
    t.name = name := by
  simpa using List.find?_some table

namespace Sql

theorem Insert.row_eq_ok_iff {i : Insert} {db : Database} {fresh : Identifier} {identity : String} {row : Row} :
    i.row db fresh = .ok (identity, row) ↔
      ∃ t fields fields', db.table? i.table = some t ∧ t.coerce (i.columns.resolve t) i.values = .ok fields ∧
        t.Identifies fields fresh identity fields' ∧ row = .ofFields t.name fields' := by
  simp only [Insert.row, Database.table]
  cases db.table? i.table with
  | none => simp [bind, Except.bind]
  | some t =>
    cases coerced : t.coerce (i.columns.resolve t) i.values with
    | error e => simp [coerced, bind, Except.bind]
    | ok fields =>
      simp only [← Table.identify_eq_ok_iff]
      cases identified : t.identify fields fresh with
      | error e => simp [coerced, identified, bind, Except.bind]
      | ok found =>
        rcases found with ⟨identity', fields'⟩
        simp [coerced, identified, bind, Except.bind, pure, Except.pure, eq_comm, and_assoc]

theorem Select.target_eq_ok_iff {q : Select} {db : Database} {table : String} {columns : List String} :
    q.target db = .ok (table, columns) ↔
      ∃ t, db.table? q.table = some t ∧ (∀ c ∈ q.columns.resolve t, c ∈ t.columnNames) ∧ table = t.name ∧
        columns = q.columns.resolve t := by
  simp only [Select.target, Database.table]
  cases db.table? q.table with
  | none => simp [bind, Except.bind]
  | some t =>
    simp only [bind, Except.bind, Option.some.injEq, exists_eq_left']
    cases unknown : (q.columns.resolve t).find? fun c => (t.column? c).isNone with
    | none =>
      have known : ∀ c ∈ q.columns.resolve t, c ∈ t.columnNames := by
        intro c member
        have := List.find?_eq_none.mp unknown c member
        rw [← Table.column?_isSome_iff]
        simpa [Option.isNone_iff_eq_none, Option.isSome_iff_ne_none] using this
      simp only [pure, Except.pure, Except.ok.injEq, Prod.mk.injEq]
      exact ⟨fun h => ⟨known, h.1.symm, h.2.symm⟩, fun h => ⟨h.2.1.symm, h.2.2.symm⟩⟩
    | some c =>
      have missing : (t.column? c).isNone = true := by simpa using List.find?_some unknown
      have member := List.mem_of_find?_eq_some unknown
      simp only [throw, throwThe, MonadExceptOf.throw, reduceCtorEq, false_iff]
      intro h
      rcases h with ⟨known, -⟩
      have := Table.column?_isSome_iff.mpr (known c member)
      simp [Option.isNone_iff_eq_none.mp missing] at this

end Sql

end RowBase
