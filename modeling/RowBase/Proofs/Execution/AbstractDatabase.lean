import RowBase.Proofs.Encoding.RoundTrip
import RowBase.Proofs.Execution.Calls
import RowBase.Proofs.Execution.Insertion
import RowBase.Proofs.Execution.Scan
import RowBase.Proofs.Text.Order

namespace RowBase

abbrev Contents :=
  Units (List Field)

/-- The rows of a table: one for each entry that has a field for every column, in ascending order of the bytes
of the identities. -/
def Contents.Lists (u : Contents) (table : String) (columns : List String) (rows : List Row) : Prop :=
  ∃ ids : List String, ids.Pairwise (fun a b => Text.utf8 a < Text.utf8 b) ∧
    (∀ id, id ∈ ids ↔ ∃ fields, u table id = some fields ∧ ∀ c ∈ columns, ∃ f ∈ fields, f.name = c) ∧
    List.Forall₂ (fun id row => row.table = table ∧ row.deleted = false ∧
      ∃ fields, u table id = some fields ∧ Projects fields columns row.fields) ids rows

/-- An entry that an INSERT makes, if its row is not too big and its names can be stored. -/
structure Inserts (db : Database) (limit : Nat) (i : Sql.Insert) (fresh : Identifier) (table identity : String)
    (fields : List Field) : Prop where
  made : ∃ t coerced, db.table? i.table = some t ∧ t.coerce (i.columns.resolve t) i.values = .ok coerced ∧
    t.Identifies coerced fresh identity fields ∧ table = t.name
  fits : (Row.ofFields table fields).encode.length ≤ limit
  named : isUnitName table = true ∧ isUnitName identity = true

/-- What a call gives on the abstract database, and what it changes. -/
inductive AbstractStep (db : Database) (limit : Nat) (u : Contents) (c : Call) :
    Except Error ResultSet → Contents → Prop
  | inserted {i : Sql.Insert} {table identity : String} {fields : List Field}
      (parsed : Sql.Statement.parse c.sql = .ok (.insert i))
      (inserts : Inserts db limit i c.fresh table identity fields) :
      AbstractStep db limit u c (.ok (.inserted identity)) (u.set table identity fields)
  | notInserted {i : Sql.Insert} {e : Error} (parsed : Sql.Statement.parse c.sql = .ok (.insert i))
      (refused : ∀ table identity fields, ¬Inserts db limit i c.fresh table identity fields) :
      AbstractStep db limit u c (.error e) u
  | selected {q : Sql.Select} {t : Table} {rows : List Row} (parsed : Sql.Statement.parse c.sql = .ok (.select q))
      (table : db.table? q.table = some t) (known : ∀ n ∈ q.columns.resolve t, n ∈ t.columnNames)
      (lists : u.Lists t.name (q.columns.resolve t) rows) :
      AbstractStep db limit u c (.ok (.selected (q.columns.resolve t) rows)) u
  | notSelected {q : Sql.Select} {e : Error} (parsed : Sql.Statement.parse c.sql = .ok (.select q))
      (refused : ∀ t, db.table? q.table = some t → ∃ n ∈ q.columns.resolve t, n ∉ t.columnNames) :
      AbstractStep db limit u c (.error e) u
  | other {e : Error} (noInsert : ∀ i, Sql.Statement.parse c.sql ≠ .ok (.insert i))
      (noSelect : ∀ q, Sql.Statement.parse c.sql ≠ .ok (.select q)) : AbstractStep db limit u c (.error e) u

inductive AbstractRun (db : Database) (limit : Nat) : Contents → List Call → List Reply → Contents → Prop
  | nil {u : Contents} : AbstractRun db limit u [] [] u
  | cons {u u' u'' : Contents} {c : Call} {cs : List Call} {r : Except Error ResultSet} {replies : List Reply}
      (step : AbstractStep db limit u c r u') (others : AbstractRun db limit u' cs replies u'') :
      AbstractRun db limit u (c :: cs) (c.handle.reply r :: replies) u''

structure Represents (m : Memory) (u : Contents) : Prop where
  units : ∀ table id, m.find? table id = (u table id).map fun fields => (Row.ofFields table fields).encode
  small : ∀ table id fields, u table id = some fields → (Row.ofFields table fields).encode.length ≤ maxRowSize

theorem Represents.insert {m : Memory} {u : Contents} (represents : Represents m u) {table id : String}
    {fields : List Field} (small : (Row.ofFields table fields).encode.length ≤ maxRowSize) :
    Represents (m.insert table id (Row.ofFields table fields).encode) (u.set table id fields) where
  units table' id' := by
    rw [Memory.find?_insert]
    by_cases same : table' = table ∧ id' = id
    · obtain ⟨rfl, rfl⟩ := same
      rw [Units.set_self, Units.set_self]
      rfl
    · rw [Units.set_of_ne _ same, Units.set_of_ne _ same, represents.units]
  small table' id' fields' found := by
    rcases Units.set_eq_some found with ⟨rfl, rfl, rfl⟩ | before
    · exact small
    · exact represents.small _ _ _ before

theorem rowOfUnit_eq_ok_iff {columns : List String} {table id : String} {fields : List Field}
    (small : (Row.ofFields table fields).encode.length ≤ maxRowSize) {row : Row} :
    rowOfUnit columns (id, .ok (Row.ofFields table fields).encode) = .ok row ↔
      row.table = table ∧ row.deleted = false ∧ Projects fields columns row.fields := by
  have short : (Row.ofFields table fields).encode.length < 2 ^ 64 := Nat.lt_of_le_of_lt small (by decide)
  have full : ((Row.ofFields table fields).project columns).length = columns.length ↔
      ∀ n ∈ columns, ∃ f ∈ fields, f.name = n := length_project_eq_iff
  rcases row with ⟨table', row, deleted⟩
  simp only [rowOfUnit, Row.decode_encode short, full, projects_iff]
  by_cases all : ∀ n ∈ columns, ∃ f ∈ fields, f.name = n
  · simp only [if_pos all, Except.ok.injEq, Row.mk.injEq]
    constructor
    · intro h
      rcases h with ⟨rfl, rfl, rfl⟩
      exact ⟨rfl, rfl, all, rfl⟩
    · intro h
      rcases h with ⟨rfl, rfl, -, rfl⟩
      exact ⟨rfl, rfl, rfl⟩
  · simp [all]

def scannedRow (m : Memory) (table : String) (columns : List String) (id : String) : Option Row :=
  (m.find? table id).bind fun bs => okPart (rowOfUnit columns (id, .ok bs))

theorem scanTable_eq (m : Memory) (table : String) (columns : List String) :
    (scanTable m table columns []).1 = .ok ((m.keys table).filterMap (scannedRow m table columns)) := by
  have row : (fun id => (account m table columns id).bind okPart) = scannedRow m table columns := by
    funext id
    simp only [account, Storage.unit?, Storage.read, scannedRow]
    cases m.find? table id <;> rfl
  have listed : Storage.keys m table = .ok (m.keys table) := rfl
  rw [scanTable_of_keys listed, List.filterMap_map, ← row]
  rfl

theorem Represents.scannedRow_eq_some_iff {m : Memory} {u : Contents} (represents : Represents m u)
    {table id : String} {columns : List String} {row : Row} :
    scannedRow m table columns id = some row ↔ row.table = table ∧ row.deleted = false ∧
      ∃ fields, u table id = some fields ∧ Projects fields columns row.fields := by
  rw [scannedRow, represents.units]
  cases entry : u table id with
  | none => simp
  | some fields =>
    have read := @rowOfUnit_eq_ok_iff columns table id fields (represents.small _ _ _ entry) row
    simp [okPart_eq_some_iff, read]

theorem Represents.lists {m : Memory} {u : Contents} (represents : Represents m u) (table : String)
    (columns : List String) :
    ∃ rows, (scanTable m table columns []).1 = .ok rows ∧ u.Lists table columns rows := by
  refine ⟨_, scanTable_eq m table columns, (m.keys table).filter fun id => (scannedRow m table columns id).isSome,
    ?_, ?_, ?_⟩
  · have ascending := (m.pairwise_keys table).imp Text.utf8_lt_utf8_iff.mpr
    exact ascending.sublist List.filter_sublist
  · intro id
    simp only [List.mem_filter, Option.isSome_iff_exists, represents.scannedRow_eq_some_iff]
    constructor
    · intro h
      rcases h with ⟨-, row, -, -, fields, entry, projects⟩
      exact ⟨fields, entry, (projects_iff.mp projects).1⟩
    · intro h
      rcases h with ⟨fields, entry, full⟩
      have listed : id ∈ m.keys table := m.mem_keys_iff.mpr ⟨_, by rw [represents.units, entry]; rfl⟩
      exact ⟨listed, ⟨table, _, false⟩, rfl, rfl, fields, entry, projects_iff.mpr ⟨full, rfl⟩⟩
  · have each := forall₂_filterMap (scannedRow m table columns) (m.keys table)
    simpa only [represents.scannedRow_eq_some_iff] using each

theorem inserts_of_row {db : Database} {limit : Nat} {i : Sql.Insert} {fresh : Identifier} {identity : String}
    {row : Row} (made : i.row db fresh = .ok (identity, row)) {table identity' : String} {fields : List Field}
    (inserts : Inserts db limit i fresh table identity' fields) :
    identity' = identity ∧ row = .ofFields table fields := by
  obtain ⟨t, coerced, found, coerces, identifies, rfl⟩ := inserts.made
  have again := Sql.Insert.row_eq_ok_iff.mpr ⟨t, coerced, fields, found, coerces, identifies, rfl⟩
  rw [made] at again
  cases again
  exact ⟨rfl, rfl⟩

theorem Represents.step {s : RowStore} {m : Memory} {u : Contents} (represents : Represents m u) (c : Call) :
    ∃ r u', (s.call m c).1 = c.handle.reply r ∧ AbstractStep s.schema s.limit u c r u' ∧
      Represents (s.call m c).2 u' := by
  obtain ⟨r, reply, effect⟩ := s.call_effect m c
  refine ⟨r, ?_⟩
  rw [reply]
  generalize (s.call m c).2 = m' at effect ⊢
  cases effect with
  | @inserted i identity row m' parsed made fits written =>
    obtain ⟨t, coerced, fields, found, coerces, identifies, rfl⟩ := Sql.Insert.row_eq_ok_iff.mp made
    obtain ⟨tableNamed, keyNamed, rfl⟩ := Memory.write_eq_ok_iff.mp written
    have inserts : Inserts s.schema s.limit i c.fresh t.name identity fields :=
      ⟨⟨t, coerced, found, coerces, identifies, rfl⟩, fits, tableNamed, keyNamed⟩
    exact ⟨_, rfl, .inserted parsed inserts, represents.insert (Nat.le_trans fits s.limit_le)⟩
  | @unwritten i identity row e m' parsed made fits refused =>
    cases Memory.eq_of_refused refused
    refine ⟨u, rfl, .notInserted parsed fun table identity' fields inserts => ?_, represents⟩
    obtain ⟨rfl, rfl⟩ := inserts_of_row made inserts
    -- Storage in memory refuses nothing but names.
    obtain ⟨tableNamed, keyNamed⟩ := inserts.named
    have written : Storage.write m table identity' (Row.ofFields table fields).encode = _ :=
      Memory.write_eq_ok_iff.mpr ⟨tableNamed, keyNamed, rfl⟩
    change Storage.write m table identity' (Row.ofFields table fields).encode = _ at refused
    rw [written] at refused
    simp at refused
  | @tooBig i identity row e parsed made big =>
    refine ⟨u, rfl, .notInserted parsed fun table identity' fields inserts => ?_, represents⟩
    obtain ⟨rfl, rfl⟩ := inserts_of_row made inserts
    exact Nat.lt_irrefl _ (Nat.lt_of_lt_of_le big inserts.fits)
  | @unmade i e parsed refused =>
    refine ⟨u, rfl, .notInserted parsed fun table identity fields inserts => ?_, represents⟩
    obtain ⟨t, coerced, found, coerces, identifies, -⟩ := inserts.made
    rw [Sql.Insert.row_eq_ok_iff.mpr ⟨t, coerced, fields, found, coerces, identifies, rfl⟩] at refused
    simp at refused
  | @selected q table columns rows parsed target scanned =>
    obtain ⟨t, found, known, rfl, rfl⟩ := Sql.Select.target_eq_ok_iff.mp target
    obtain ⟨rows', scanned', lists⟩ := represents.lists t.name (q.columns.resolve t)
    rw [scanned'] at scanned
    cases scanned
    exact ⟨u, rfl, .selected parsed found known lists, represents⟩
  | @unlisted q table columns e parsed target refused =>
    obtain ⟨rows, scanned, -⟩ := represents.lists table columns
    rw [scanned] at refused
    simp at refused
  | @untargeted q e parsed refused =>
    refine ⟨u, rfl, .notSelected parsed fun t found => ?_, represents⟩
    by_contra none
    have known : ∀ n ∈ q.columns.resolve t, n ∈ t.columnNames := by simpa using none
    rw [Sql.Select.target_eq_ok_iff.mpr ⟨t, found, known, rfl, rfl⟩] at refused
    simp at refused
  | other noInsert noSelect => exact ⟨u, rfl, .other noInsert noSelect, represents⟩

theorem Represents.run {s : RowStore} (cs : List Call) {m : Memory} {u : Contents} (represents : Represents m u) :
    ∃ u', AbstractRun s.schema s.limit u cs (s.calls m cs).1 u' ∧ Represents (s.calls m cs).2 u' := by
  induction cs generalizing m u with
  | nil => exact ⟨u, .nil, represents⟩
  | cons c cs ih =>
    obtain ⟨r, mid, reply, step, represents'⟩ := represents.step (s := s) c
    obtain ⟨last, others, represents''⟩ := ih represents'
    refine ⟨last, ?_, represents''⟩
    change AbstractRun s.schema s.limit u (c :: cs) ((s.call m c).1 :: (s.calls (s.call m c).2 cs).1) last
    rw [reply]
    exact .cons step others

end RowBase
