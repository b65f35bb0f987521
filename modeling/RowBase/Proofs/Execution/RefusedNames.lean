import RowBase.Proofs.Execution.InsertFaults
import RowBase.Proofs.Execution.UnwrittenTables

namespace RowBase

theorem Value.ofLiteral_ne_invalidKey (type : DataType) (literal name : String) :
    ofLiteral type literal ≠ .error (.invalidKey name) := by
  intro failed
  unfold ofLiteral at failed
  cases type with
  | bool | int | float | time | uuid =>
    dsimp only at failed
    split at failed <;> cases failed
  | string | bytes => cases failed

theorem Sql.Insert.row_ne_invalidKey (i : Sql.Insert) (db : Database) (fresh : Identifier) (name : String) :
    i.row db fresh ≠ .error (.invalidKey name) := by
  intro failed
  cases row_eq_error_iff.mp failed with
  | field _ _ refused =>
    obtain ⟨_, _, _, _, -, -, refuses⟩ := refused
    cases refuses with
    | unread _ _ failed => exact Value.ofLiteral_ne_invalidKey _ _ _ failed
  | key _ fault => cases fault

theorem Sql.Select.target_ne_invalidKey (q : Sql.Select) (db : Database) (name : String) :
    q.target db ≠ .error (.invalidKey name) := by
  rw [target, ne_eq, Except.bind_eq_error_iff, Database.table_eq_error_iff]
  rintro (⟨-, other⟩ | ⟨t, -, failed⟩)
  · cases other
  · dsimp only at failed
    split at failed <;> cases failed

namespace RowStore

variable {σ : Type} [Storage σ] {checked : UnitCall → Prop} {s : RowStore} {store : σ} {name : String}

theorem runInsert_eq_invalidKey_iff (checks : Storage.ChecksNames σ checked)
    (sets : ∀ c : UnitCall, c.IsSet → checked c) {i : Sql.Insert} {fresh : Identifier} :
    (s.runInsert store fresh i).result = .error (.invalidKey name) ↔
      ∃ identity row, i.row s.schema fresh = .ok (identity, row) ∧ row.encode.length ≤ s.limit ∧
        (UnitCall.set row.table identity row.encode).unfit? = some name := by
  cases made : i.row s.schema fresh with
  | error e =>
    have other : e ≠ .invalidKey name := by
      rintro rfl
      exact i.row_ne_invalidKey _ _ _ made
    simp [runInsert, made, other]
  | ok found =>
    rcases found with ⟨identity, row⟩
    have refuses := checks store (.set row.table identity row.encode) name
    have set : checked (.set row.table identity row.encode) := sets _ (by trivial)
    rw [Storage.refuses_set_iff, and_iff_right set] at refuses
    rw [runInsert_result made, Except.map_eq_error_iff, createRow]
    by_cases big : s.limit < row.encode.length
    · simp [big, Nat.not_le.mpr big]
    · simp [big, Nat.not_lt.mp big, refuses]

theorem scanTable_eq_error_iff {table : String} {columns : List String} {filters : List Filter} {e : Error} :
    (scanTable store table columns filters).1 = .error e ↔ Storage.keys store table = .error e := by
  have units : Storage.units store table = .error e ↔ Storage.keys store table = .error e := Except.map_eq_error_iff
  rw [← units, scanTable]
  cases Storage.units store table <;> simp

theorem runSelect_eq_invalidKey_iff (checks : Storage.ChecksNames σ checked) {q : Sql.Select} :
    (s.runSelect store q).result = .error (.invalidKey name) ↔
      checked (.scan name) ∧ isUnitName name = false ∧ ∃ columns, q.target s.schema = .ok (name, columns) := by
  cases target : q.target s.schema with
  | error e =>
    have other : e ≠ .invalidKey name := by
      rintro rfl
      exact q.target_ne_invalidKey _ _ target
    simp [runSelect, target, other]
  | ok found =>
    rcases found with ⟨table, columns⟩
    have refuses := checks store (.scan table) name
    rw [Storage.refuses_scan_iff, UnitCall.unfit?_of_single rfl] at refuses
    have result : (s.runSelect store q).result = .error (.invalidKey name) ↔
        Storage.keys store table = .error (.invalidKey name) := by
      simp [runSelect, target, Except.map_eq_error_iff, scanTable_eq_error_iff]
    rw [result, refuses]
    constructor
    · rintro ⟨kind, unfit, rfl⟩
      exact ⟨kind, unfit, columns, rfl⟩
    · rintro ⟨kind, unfit, columns', same⟩
      cases same
      exact ⟨kind, unfit, rfl⟩

theorem runSelect_of_unfit {m : Memory} (named : m.AllNamed) {q : Sql.Select} {table : String} {columns : List String}
    (target : q.target s.schema = .ok (table, columns)) (unfit : isUnitName table = false) :
    (s.runSelect m q).result = .ok (.selected columns []) := by
  have first : (UnitCall.scan table).unfit? = some table := (UnitCall.unfit?_of_single rfl).mpr ⟨unfit, rfl⟩
  have nothing : Storage.units m table = .ok [] := by
    have served := named.serve_of_unfit (c := .scan table) id first
    cases listed : Storage.units m table with
    | error e => simp [Storage.serve, listed, Except.map] at served
    | ok units => simpa [Storage.serve, listed, Except.map, UnitCall.nothing] using served
  simp [runSelect, target, scanTable, nothing, Except.map]

end RowStore

/-- Two results are the same refusal of a name, or neither is one. -/
def SameRefusals {α : Type} (r r' : Except Error α) : Prop :=
  ∀ name, r = .error (.invalidKey name) ↔ r' = .error (.invalidKey name)

namespace SameRefusals

variable {s : RowStore} (m : Memory) (d : Disk)

theorem serve_iff {c : UnitCall} :
    SameRefusals (Storage.serve m c).1 (Storage.serve d c).1 ↔ c.IsSet ∨ c.unfit? = none := by
  have disk (name : String) : Storage.Refuses d c name ↔ c.unfit? = some name :=
    (Disk.checksNames d c name).trans (and_iff_right trivial)
  constructor
  · intro same
    by_cases set : c.IsSet
    · exact .inl set
    · refine .inr (Option.eq_none_iff_forall_ne_some.mpr fun name unfit => set ?_)
      exact ((Memory.checksNames m c name).mp ((same name).mpr ((disk name).mpr unfit))).1
  · intro h name
    refine (Memory.checksNames m c name).trans (Iff.trans ?_ (disk name).symm)
    rcases h with set | fit
    · exact and_iff_right set
    · simp [fit]

theorem runInsert (i : Sql.Insert) (fresh : Identifier) :
    SameRefusals (s.runInsert m fresh i).result (s.runInsert d fresh i).result := fun _ =>
  (RowStore.runInsert_eq_invalidKey_iff Memory.checksNames fun _ set => set).trans
    (RowStore.runInsert_eq_invalidKey_iff Disk.checksNames fun _ _ => trivial).symm

theorem runSelect_iff {q : Sql.Select} : SameRefusals (s.runSelect m q).result (s.runSelect d q).result ↔
    ∀ table columns, q.target s.schema = .ok (table, columns) → isUnitName table = true := by
  have memory (name : String) : (s.runSelect m q).result ≠ .error (.invalidKey name) := fun refused =>
    ((RowStore.runSelect_eq_invalidKey_iff Memory.checksNames).mp refused).1
  constructor
  · intro same table columns target
    by_contra unfit
    rw [Bool.not_eq_true] at unfit
    have refused : (s.runSelect d q).result = .error (.invalidKey table) :=
      (RowStore.runSelect_eq_invalidKey_iff Disk.checksNames).mpr ⟨trivial, unfit, columns, target⟩
    exact memory table ((same table).mpr refused)
  · intro fit name
    refine iff_of_false (memory name) fun refused => ?_
    obtain ⟨-, unfit, columns, target⟩ := (RowStore.runSelect_eq_invalidKey_iff Disk.checksNames).mp refused
    rw [fit _ _ target] at unfit
    cases unfit

theorem execute (sql : String) (fresh : Identifier) :
    SameRefusals (s.execute m fresh sql).result (s.execute d fresh sql).result := by
  cases parsed : Sql.Statement.parse sql with
  | error e =>
    simp only [RowStore.execute, parsed]
    exact fun _ => Iff.rfl
  | ok statement =>
    simp only [RowStore.execute, parsed]
    cases statement with
    | insert i => exact runInsert m d i fresh
    | select q =>
      refine (runSelect_iff m d).mpr fun table columns target => ?_
      obtain ⟨t, found, -, rfl, -⟩ := Sql.Select.target_eq_ok_iff.mp target
      rw [Database.name_of_table? found]
      exact Sql.Grammar.isUnitName_of_select parsed
    | createTable t => exact fun _ => Iff.rfl

end SameRefusals

/-- Whatever was called before, a disk refuses each call with a name that can stand for no unit, for the first such name.
Memory refuses the same writes, but no other calls, and has nothing to read under such names. So the engines differ for
calls that read and, for the same reason, for a SELECT from a table with such a name: memory gives no rows for it. They
do not differ for an INSERT, nor for a statement that a text spells. -/
theorem unfit_names_refused (past : List UnitCall) (d : Disk) (s : RowStore) :
    (∀ c name, Storage.Refuses (Storage.after d past) c name ↔ c.unfit? = some name) ∧
    (∀ c, SameRefusals (Storage.serve (Storage.after Memory.empty past) c).1 (Storage.serve (Storage.after d past) c).1 ↔
      c.IsSet ∨ c.unfit? = none) ∧
    (∀ c name, ¬c.IsSet → c.unfit? = some name →
      (Storage.serve (Storage.after Memory.empty past) c).1 = .ok c.nothing) ∧
    (∀ i fresh, SameRefusals (s.runInsert (Storage.after Memory.empty past) fresh i).result
      (s.runInsert (Storage.after d past) fresh i).result) ∧
    (∀ q, SameRefusals (s.runSelect (Storage.after Memory.empty past) q).result
      (s.runSelect (Storage.after d past) q).result ↔
        ∀ table columns, q.target s.schema = .ok (table, columns) → isUnitName table = true) ∧
    (∀ q table columns, q.target s.schema = .ok (table, columns) → isUnitName table = false →
      (s.runSelect (Storage.after Memory.empty past) q).result = .ok (.selected columns [])) ∧
    ∀ sql fresh, SameRefusals (s.execute (Storage.after Memory.empty past) fresh sql).result
      (s.execute (Storage.after d past) fresh sql).result := by
  have named := Memory.allNamed_after past
  refine ⟨fun c name => ?_, fun c => SameRefusals.serve_iff _ _, fun c name reads unfit => ?_,
    fun i fresh => SameRefusals.runInsert _ _ i fresh, fun q => SameRefusals.runSelect_iff _ _,
    fun q table columns target unfit => ?_, fun sql fresh => SameRefusals.execute _ _ sql fresh⟩
  · rw [Disk.checksNames, true_and]
  · exact named.serve_of_unfit reads unfit
  · exact RowStore.runSelect_of_unfit named target unfit

def slashTable : Table :=
  ⟨"a/b", [⟨"n", .int⟩], []⟩

def slashSchema : Database :=
  { Database.blank "app" with tables := [slashTable] }

def slashCalls : List UnitCall :=
  [.set "t" "k" [1], .set "t" "a/b" [2], .scan "a/b"]

theorem unfit_names_refused_slash :
    (¬(UnitCall.get "t" "a/b").IsSet ∧ (UnitCall.get "t" "a/b").unfit? = some "a/b" ∧
      (Storage.serve (Storage.after Memory.empty slashCalls) (.get "t" "a/b")).1 = .ok (.found none) ∧
      Storage.Refuses (Storage.after (⟨.empty, ⟨"data"⟩⟩ : Disk) slashCalls) (.get "t" "a/b") "a/b") ∧
    Sql.Select.target ⟨"a/b", .all⟩ slashSchema = .ok ("a/b", ["n"]) ∧ isUnitName "a/b" = false ∧
      ((RowStore.ofSchema slashSchema).runSelect (Storage.after Memory.empty slashCalls) ⟨"a/b", .all⟩).result =
        .ok (.selected ["n"] []) := by
  have unfit : (UnitCall.get "t" "a/b").unfit? = some "a/b" := by decide
  have target : Sql.Select.target ⟨"a/b", .all⟩ slashSchema = .ok ("a/b", ["n"]) := rfl
  obtain ⟨disk, -, memory, -, -, select, -⟩ :=
    unfit_names_refused slashCalls ⟨.empty, ⟨"data"⟩⟩ (RowStore.ofSchema slashSchema)
  exact ⟨⟨id, unfit, memory _ _ id unfit, (disk _ _).mpr unfit⟩, target, by decide, select _ _ _ target (by decide)⟩

/-- A name that a disk refuses to read is no error in memory. -/
theorem slash_read_in_memory : ¬∀ (past : List UnitCall) (d : Disk) (c : UnitCall), d.Fresh →
    (∀ name ∈ c.names, name.utf8ByteSize ≤ 255) → ((∃ name, Storage.Refuses (Storage.after Memory.empty past) c name) ↔
      ∃ name, Storage.Refuses (Storage.after d past) c name) := by
  intro alike
  have fresh : Disk.Fresh ⟨.empty, ⟨"data"⟩⟩ := Disk.fresh_of_empty (by decide) (by decide)
  have same := alike [] ⟨.empty, ⟨"data"⟩⟩ (.get "t" "a/b") fresh (by decide)
  obtain ⟨name, refused⟩ := same.mpr ⟨"a/b", rfl⟩
  cases refused

end RowBase
