import RowBase.Proofs.Encoding.RoundTrip
import RowBase.Proofs.Execution.Calls
import RowBase.Proofs.Execution.Insertion
import RowBase.Proofs.Execution.Scan

namespace RowBase

theorem rowOfUnit_of_projects {columns : List String} {key : String} {bs : Bytes} {row : Row} {fields : List Field}
    (decoded : Row.decode bs = .ok row) (projects : Projects row.fields columns fields) :
    rowOfUnit columns (key, .ok bs) = .ok { row with fields } := by
  obtain ⟨each, same⟩ := projects_iff.mp projects
  have full := length_project_eq_iff.mpr each
  have cut : row.project columns = fields := same.symm
  rw [cut] at full
  simp only [rowOfUnit, decoded, cut, if_pos full]

/-- A SELECT finds the unit of an identity to be the row, and gives it among its rows. -/
structure RowStore.Shows {σ : Type} [Storage σ] (s : RowStore) (store : σ) (q : Sql.Select) (t : Table)
    (identity : String) (row : Row) : Prop where
  account : account store t.name (q.columns.resolve t) identity = some (.ok row)
  selected : ∀ c : Call, Sql.Statement.parse c.sql = .ok (.select q) →
    ∃ rows, (s.call store c).1 = c.handle.reply (.ok (.selected (q.columns.resolve t) rows)) ∧ row ∈ rows

variable {σ : Type} [Storage σ] [LawfulStorage σ]

theorem shows_of_written {s : RowStore} {store store' : σ} {q : Sql.Select} {t : Table} {identity : String} {row : Row}
    {fields : List Field} (table : s.schema.table? q.table = some t)
    (known : ∀ n ∈ q.columns.resolve t, n ∈ t.columnNames) (small : row.encode.length ≤ maxRowSize)
    (written : Storage.write store t.name identity row.encode = (.ok (), store'))
    (projects : Projects row.fields (q.columns.resolve t) fields) :
    s.Shows store' q t identity { row with fields } := by
  have decoded := Row.decode_encode (Nat.lt_of_le_of_lt small (by decide) : row.encode.length < 2 ^ 64)
  have accounted : account store' t.name (q.columns.resolve t) identity = some (.ok { row with fields }) := by
    rw [account, Storage.unit?, LawfulStorage.read_of_write written]
    exact congrArg some (rowOfUnit_of_projects decoded projects)
  obtain ⟨keys, listed, member⟩ := LawfulStorage.listed_of_write written
  have scanned := congrArg Prod.fst (scanTable_of_keys listed (q.columns.resolve t) [])
  have target := Sql.Select.target_eq_ok_iff.mpr ⟨t, table, known, rfl, rfl⟩
  refine ⟨accounted, fun c parsed => ?_⟩
  rw [RowStore.call_of_parse parsed, RowStore.runStatement, RowStore.runSelect, target]
  simp only [scanned]
  exact ⟨_, rfl, List.mem_filterMap.mpr ⟨_, List.mem_map_of_mem member, by rw [accounted]; rfl⟩⟩

end RowBase
