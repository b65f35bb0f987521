import RowBase.Proofs.Execution.QuotedText
import RowBase.Proofs.Execution.StoredRows
import RowBase.Proofs.Schema.TableValidity

namespace RowBase

/-- A list of columns that is written out names none of them twice. -/
def Sql.Columns.NamesOnce : Sql.Columns → Prop
  | .all => True
  | .named names => names.Nodup

theorem Sql.Columns.nodup_resolve_iff {t : Table} (valid : t.validate = .ok ()) (columns : Sql.Columns) :
    (columns.resolve t).Nodup ↔ columns.NamesOnce := by
  cases columns with
  | all => exact iff_of_true (t.nodup_columnNames valid) trivial
  | named names => exact Iff.rfl

theorem Table.known_of_coerce {t : Table} {names literals : List String} {fields : List Field}
    (coerced : t.coerce names literals = .ok fields) : ∀ n ∈ names, n ∈ t.columnNames := by
  intro n member
  rw [← names_of_coerce coerced] at member
  obtain ⟨f, among, rfl⟩ := List.mem_map.mp member
  obtain ⟨p, -, coerces⟩ := exists_of_forall₂ (coerce_eq_ok_iff.mp coerced).2 among
  obtain ⟨c, column, -⟩ := coerces.fits.column
  exact column?_isSome_iff.mp (by simp [column])

theorem Projects.unique {fields row row' : List Field} {names : List String} (projects : Projects fields names row)
    (projects' : Projects fields names row') : row = row' := by
  rw [(projects_iff.mp projects).2, (projects_iff.mp projects').2]

theorem exists_projects (fields : List Field) : ∃ row, Projects fields (fields.map (·.name)) row :=
  ⟨_, projects_iff.mpr ⟨fun _ member => List.mem_map.mp member, rfl⟩⟩

theorem projects_self_of_nodup {fields : List Field} (nodup : (fields.map (·.name)).Nodup) :
    Projects fields (fields.map (·.name)) fields := by
  rw [Projects, List.forall₂_map_left_iff, List.forall₂_same]
  intro f member
  cases found : fields.find? (·.name == f.name) with
  | none => simpa using List.find?_eq_none.mp found f member
  | some g =>
    have same : g.name = f.name := by simpa using List.find?_some found
    rw [List.inj_on_of_nodup_map nodup (List.mem_of_find?_eq_some found) member same]

theorem Table.Identifies.nodup_iff {t : Table} {fields fields' : List Field} {fresh : Identifier} {identity : String}
    (identifies : t.Identifies fields fresh identity fields') :
    (fields'.map (·.name)).Nodup ↔ (fields.map (·.name)).Nodup := by
  cases identifies with
  | unkeyed | supplied => exact Iff.rfl
  | @synthesized k c v key absent column made =>
    have apart : k.column ∉ fields.map (·.name) := by simpa using absent
    rw [List.map_append, List.map_singleton, ← List.concat_eq_append, List.nodup_concat]
    exact and_iff_right apart

theorem Table.Identifies.projects {t : Table} {fields fields' shown : List Field} {fresh : Identifier}
    {identity : String} {names : List String} (identifies : t.Identifies fields fresh identity fields')
    (projects : Projects fields names shown) : Projects fields' names shown :=
  projects.imp fun _ _ found => identifies.find? found

variable {σ : Type} [Storage σ]

/-- What is stored of the values of an INSERT, and what a SELECT of its own columns gives of them. -/
structure Keeps (s : RowStore) (store : σ) (i : Sql.Insert) (t : Table) (identity : String)
    (fields shown : List Field) : Prop where
  stored : ∃ bs row, Storage.read store t.name identity = .ok (some bs) ∧ Row.decode bs = .ok row ∧
    ((row.fields.map (·.name)).Nodup ↔ i.columns.NamesOnce)
  shows : s.Shows store ⟨i.table, i.columns⟩ t identity (.ofFields t.name shown)
  first : Projects fields (i.columns.resolve t) shown
  all : i.columns.NamesOnce → shown = fields

variable [LawfulStorage σ]

/-- An INSERT that succeeds stores one field for each name if and only if it names no column twice. A SELECT of its
columns then gives every value at its place, and otherwise the first value of each name. -/
theorem values_kept_unless_repeated {s : RowStore} {store : σ} {c : Call} {i : Sql.Insert} {t : Table}
    {identity : String} (parsed : Sql.Statement.parse c.sql = .ok (.insert i))
    (table : s.schema.table? i.table = some t) (valid : t.validate = .ok ())
    (succeeds : (s.call store c).1 = c.handle.reply (.ok (.inserted identity))) :
    ∃ fields shown, t.coerce (i.columns.resolve t) i.values = .ok fields ∧
      Keeps s (s.call store c).2 i t identity fields shown := by
  obtain ⟨r, reply, effect⟩ := s.call_effect store c
  rw [reply] at succeeds
  cases Handle.eq_inserted succeeds
  generalize (s.call store c).2 = store' at effect ⊢
  cases effect with
  | @inserted j identity row store' parsed' made fits written =>
    rw [parsed] at parsed'
    cases parsed'
    obtain ⟨t', fields, fields', table', coerced, identifies, rfl⟩ := Sql.Insert.row_eq_ok_iff.mp made
    rw [table] at table'
    cases table'
    have small := Nat.le_trans fits s.limit_le
    have names := Table.names_of_coerce coerced
    have once : (fields.map (·.name)).Nodup ↔ i.columns.NamesOnce := by
      rw [names, Sql.Columns.nodup_resolve_iff valid]
    -- A key that was made up stands behind the fields of the literals and has a name of its own, so neither what is
    -- shown of them nor a repeated name hangs on it.
    obtain ⟨shown, projects⟩ := exists_projects fields
    have alone : i.columns.NamesOnce → shown = fields := fun h =>
      projects.unique (projects_self_of_nodup (once.mpr h))
    rw [names] at projects
    have decoded := Row.decode_encode (Nat.lt_of_le_of_lt small (by decide) : List.length _ < 2 ^ 64)
    exact ⟨fields, shown, coerced,
      ⟨_, _, LawfulStorage.read_of_write written, decoded, identifies.nodup_iff.trans once⟩,
      shows_of_written table (Table.known_of_coerce coerced) small written (identifies.projects projects),
      projects, alone⟩

def points : Table :=
  ⟨"points", [⟨"id", .uuid⟩, ⟨"x", .int⟩, ⟨"y", .int⟩], [⟨"key", "id", true, true, true, none, none⟩]⟩

def pointStore : RowStore :=
  .ofSchema { Database.blank "points" with tables := [points] }

def insertPoint (sql : String) : Call :=
  ⟨.session, sql, .zero⟩

def pointInsert (columns : List String) : Sql.Insert :=
  ⟨"points", .named columns, ["1", "2"]⟩

def pointFields (first second : String) : List Field :=
  [.ofValue first .int (.int 1), .ofValue second .int (.int 2)]

def pointRow (fields : List Field) : Row :=
  .ofFields "points" (fields ++ [.ofValue "id" .uuid (.uuid .zero)])

theorem call_insertPoint {sql : String} {i : Sql.Insert} {fields : List Field}
    (parsed : Sql.Statement.parse sql = .ok (.insert i))
    (made : i.row pointStore.schema .zero = .ok (Identifier.zero.text, pointRow fields))
    (fits : (pointRow fields).encode.length ≤ maxRowSize) :
    pointStore.call Memory.empty (insertPoint sql) = (.result (.ok (.inserted Identifier.zero.text)),
      Memory.empty.insert "points" Identifier.zero.text (pointRow fields).encode) := by
  have space : isUnitName (pointRow fields).table = true := by
    change isUnitName "points" = true
    decide
  exact RowStore.call_of_row (c := insertPoint sql) parsed made fits space (by decide) Memory.empty

theorem values_kept_unless_repeated_points :
    Keeps pointStore (pointStore.call Memory.empty (insertPoint "INSERT INTO points (y, x) VALUES (1, 2);")).2
      (pointInsert ["y", "x"]) points Identifier.zero.text (pointFields "y" "x") (pointFields "y" "x") := by
  have parsed : Sql.Statement.parse "INSERT INTO points (y, x) VALUES (1, 2);" =
      .ok (.insert (pointInsert ["y", "x"])) := by decide +kernel
  have coerced : points.coerce ["y", "x"] ["1", "2"] = .ok (pointFields "y" "x") := by decide +kernel
  have made : (pointInsert ["y", "x"]).row pointStore.schema .zero =
      .ok (Identifier.zero.text, pointRow (pointFields "y" "x")) := by decide +kernel
  have called := call_insertPoint parsed made (by decide)
  obtain ⟨fields, shown, given, keeps⟩ := values_kept_unless_repeated (c := insertPoint _) (t := points) parsed rfl
    (by decide) (congrArg Prod.fst called)
  cases coerced.symm.trans given
  have once : (pointInsert ["y", "x"]).columns.NamesOnce := by
    change ["y", "x"].Nodup
    decide
  cases keeps.all once
  exact keeps

/-- The second value for a column is stored, and no SELECT finds it. -/
theorem repeated_column_loses_value : ¬∀ (s : RowStore) (store : Memory) (c : Call) (i : Sql.Insert) (t : Table)
    (identity : String), Sql.Statement.parse c.sql = .ok (.insert i) → s.schema.table? i.table = some t →
      t.validate = .ok () → (s.call store c).1 = c.handle.reply (.ok (.inserted identity)) →
      ∃ fields bs row, t.coerce (i.columns.resolve t) i.values = .ok fields ∧
        Storage.read (s.call store c).2 t.name identity = .ok (some bs) ∧ Row.decode bs = .ok row ∧
        (row.fields.map (·.name)).Nodup ∧
        s.Shows (s.call store c).2 ⟨i.table, i.columns⟩ t identity (.ofFields t.name fields) := by
  intro kept
  have parsed : Sql.Statement.parse "INSERT INTO points (x, x) VALUES (1, 2);" =
      .ok (.insert (pointInsert ["x", "x"])) := by decide +kernel
  have coerced : points.coerce ["x", "x"] ["1", "2"] = .ok (pointFields "x" "x") := by decide +kernel
  have made : (pointInsert ["x", "x"]).row pointStore.schema .zero =
      .ok (Identifier.zero.text, pointRow (pointFields "x" "x")) := by decide +kernel
  have called := call_insertPoint parsed made (by decide)
  obtain ⟨fields, bs, row, given, -, -, -, shows⟩ := kept pointStore Memory.empty (insertPoint _) _ points _ parsed
    rfl (by decide) (congrArg Prod.fst called)
  cases coerced.symm.trans given
  -- Both places show the first value.
  have account := shows.account
  rw [called] at account
  cases account

end RowBase
