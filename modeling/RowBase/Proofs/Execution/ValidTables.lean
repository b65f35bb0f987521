import RowBase.Proofs.Execution.InsertFaults
import RowBase.Proofs.Schema.TableValidity

namespace RowBase

theorem Value.ofLiteral_ne_columnNotFound (type : DataType) (literal column : String) :
    ofLiteral type literal ≠ .error (.columnNotFound column) := by
  intro failed
  unfold ofLiteral at failed
  dsimp only at failed
  split at failed
  · cases value : bool? literal <;> simp [value] at failed
  · cases value : int64? literal <;> simp [value] at failed
  · cases value : Binary64.ofText? literal <;> simp [value] at failed
  · cases failed
  · cases value : Timestamp.ofLiteral? literal <;> simp [value] at failed
  · cases failed
  · cases value : Identifier.ofText? literal <;> simp [value] at failed

namespace Table

theorem Valid.not_keyFault {t : Table} (valid : t.Valid) (fields : List Field) (column : String) :
    ¬t.KeyFault fields (.columnNotFound column) := by
  intro fault
  cases fault with
  | @unknown k key _ missing =>
    obtain ⟨c, -, found⟩ := valid.exists_column (List.mem_of_find?_eq_some key)
    rw [missing] at found
    cases found

theorem Refuses.unknown_name {t : Table} {name literal column : String}
    (refuses : t.Refuses name literal (.columnNotFound column)) : name = column ∧ column ∉ t.columnNames := by
  cases refuses with
  | unknown absent =>
    refine ⟨rfl, fun member => ?_⟩
    obtain ⟨c, among, named⟩ := List.mem_map.mp member
    exact absent c among named
  | unread _ _ failed => exact absurd failed (Value.ofLiteral_ne_columnNotFound _ _ _)

end Table

theorem Sql.Insert.RowFault.column_named {i : Sql.Insert} {db : Database} {t : Table} {column : String}
    (fault : i.RowFault db (.columnNotFound column)) (table : db.table? i.table = some t) (valid : t.Valid) :
    column ∈ i.columns.resolve t ∧ column ∉ t.columnNames := by
  cases fault with
  | @field t' _ table' _ refused =>
    cases table.symm.trans table'
    obtain ⟨before, name, literal, after, split, -, refuses⟩ := refused
    obtain ⟨rfl, missing⟩ := refuses.unknown_name
    have member : (name, literal) ∈ (i.columns.resolve t).zip i.values := by simp [split]
    exact ⟨(List.of_mem_zip member).1, missing⟩
  | key fills fault =>
    cases table.symm.trans fills.table
    exact absurd fault (valid.not_keyFault _ _)

/-- The check of a table passes if the table is valid, and else tells its first fault. A valid table finds each of its
columns by name and has no primary key but the one that it finds, on a column that is there. Making a key up for a row
of it misses no column, so a column that an INSERT misses is one that it names and the table does not have. -/
theorem tables_checked_for_first_fault (t : Table) :
    (t.validate = .ok () ↔ t.Valid) ∧
    (∀ e, t.validate = .error e ↔ ∃ f, t.FirstFault f ∧ e = .invalidTable t.name f) ∧
    (t.validate = .ok () →
      (∀ c ∈ t.columns, t.column? c.name = some c) ∧
      (∀ k ∈ t.constraints, k.primaryKey = true →
        t.primaryKey? = some k ∧ t.constraints.filter (·.primaryKey) = [k] ∧
          ∃ c ∈ t.columns, c.name = k.column ∧ t.column? k.column = some c) ∧
      (∀ fields fresh column, t.identify fields fresh ≠ .error (.columnNotFound column)) ∧
      ∀ (db : Database) (i : Sql.Insert) (fresh : Identifier) (column : String), db.table? i.table = some t →
        i.row db fresh = .error (.columnNotFound column) → column ∈ i.columns.resolve t ∧ column ∉ t.columnNames) := by
  refine ⟨t.validate_eq_ok_iff, fun _ => t.validate_eq_error_iff, fun accepted => ?_⟩
  have valid := t.validate_eq_ok_iff.mp accepted
  refine ⟨fun c => valid.column?_eq_some, fun k member key => ?_, fun fields fresh column failed => ?_, ?_⟩
  · obtain ⟨c, among, found⟩ := valid.exists_column member
    exact ⟨valid.primaryKey?_eq_some member key, valid.primaryKey_unique member key, c, among,
      Table.name_of_column? found, found⟩
  · exact valid.not_keyFault fields column (Table.identify_eq_error_iff.mp failed)
  · intro db i fresh column table failed
    exact (Sql.Insert.row_eq_error_iff.mp failed).column_named table valid

def orders : Table :=
  ⟨"orders", [⟨"id", .uuid⟩, ⟨"amount", .int⟩], [⟨"key", "id", true, true, true, none, none⟩]⟩

def faultyOrders : Table :=
  { orders with
    columns := orders.columns ++ [⟨"id", .string⟩]
    constraints := orders.constraints ++ [⟨"other", "price", true, true, true, none, none⟩] }

theorem tables_checked_for_first_fault_orders :
    orders.Valid ∧ faultyOrders.validate = .error (.invalidTable "orders" (.duplicateColumn "id")) ∧
    (∀ c ∈ orders.columns, orders.column? c.name = some c) ∧
    orders.primaryKey? = some ⟨"key", "id", true, true, true, none, none⟩ ∧
    (∀ fields fresh column, orders.identify fields fresh ≠ .error (.columnNotFound column)) ∧
    "price" ∈ ["amount", "price"] ∧ "price" ∉ orders.columnNames := by
  obtain ⟨passes, -, kept⟩ := tables_checked_for_first_fault orders
  obtain ⟨-, fails, -⟩ := tables_checked_for_first_fault faultyOrders
  have accepted : orders.validate = .ok () := by decide
  obtain ⟨columns, keys, made, named⟩ := kept accepted
  have again : faultyOrders.columns = orders.columns ++ [⟨"id", .string⟩] := rfl
  have fault : faultyOrders.FirstFault (.duplicateColumn "id") := .duplicateColumn again (by decide) (by decide)
  obtain ⟨key, -, -⟩ := keys ⟨"key", "id", true, true, true, none, none⟩ (by decide) rfl
  have missed := named { Database.blank "orders" with tables := [orders] }
    ⟨"orders", .named ["amount", "price"], ["1", "2"]⟩ .zero "price" rfl (by decide +kernel)
  exact ⟨passes.mp accepted, (fails _).mpr ⟨_, fault, rfl⟩, columns, key, made, missed⟩

end RowBase
