import RowBase.Proofs.Encoding.RoundTrip
import RowBase.Proofs.Execution.Calls
import RowBase.Proofs.Execution.Insertion
import RowBase.Proofs.Storage.DiskUnits
import RowBase.Proofs.Value.IdentifierLayout

namespace RowBase

/-- A field holds a value of its column, and a null one where a constraint allows it. -/
structure Field.Fits (f : Field) (t : Table) : Prop where
  column : ∃ c, t.column? f.name = some c ∧ f.type = c.type
  typed : f.value.type = f.type
  null : f.isNull = true → f.value = .zero f.type ∧ ∃ k, t.constraint? f.name = some k

/-- The key of a row is the text of its primary key, or an identifier if the table has none. -/
def Table.Keys (t : Table) (row : Row) (key : String) : Prop :=
  match t.primaryKey? with
  | some k => ∃ f v, row.field? k.column = some f ∧ f.value? = some v ∧ v.text = key
  | none => Identifier.isLayout key.toList = true

structure SoundUnit (db : Database) (limit : Nat) (space key : String) (bs : Bytes) : Prop where
  small : bs.length ≤ min limit maxRowSize
  sound : ∃ row t, Row.decode bs = .ok row ∧ row.table = space ∧ db.table space = .ok t ∧ row.deleted = false ∧
    (∀ f ∈ row.fields, f.Fits t) ∧ t.Keys row key

theorem exists_of_forall₂ {α β : Type} {R : α → β → Prop} {as : List α} {bs : List β} (each : List.Forall₂ R as bs)
    {b : β} (member : b ∈ bs) : ∃ a ∈ as, R a b := by
  induction each with
  | nil => simp at member
  | @cons a b' as bs first others ih =>
    rcases List.mem_cons.mp member with rfl | member
    · exact ⟨a, by simp, first⟩
    · obtain ⟨a', among, related⟩ := ih member
      exact ⟨a', by simp [among], related⟩

namespace Table

theorem Coerces.fits {t : Table} {name literal : String} {f : Field} (coerces : t.Coerces name literal f) :
    f.Fits t := by
  cases coerces with
  | @null c k column constraint =>
    have named := name_of_column? column
    exact ⟨⟨c, by rw [← named] at column; exact column, rfl⟩, Value.type_zero _,
      fun _ => ⟨rfl, k, by rw [← named] at constraint; exact constraint⟩⟩
  | @value c v column _ read =>
    have named := name_of_column? column
    refine ⟨⟨c, by rw [← named] at column; exact column, rfl⟩, Value.type_ofLiteral read, fun null => ?_⟩
    simp [Field.ofValue] at null

theorem Identifies.fits {t : Table} {fields fields' : List Field} {fresh : Identifier} {identity : String}
    (identifies : t.Identifies fields fresh identity fields') (each : ∀ f ∈ fields, f.Fits t) :
    ∀ f ∈ fields', f.Fits t := by
  cases identifies with
  | unkeyed | supplied => exact each
  | @synthesized k c v key absent column made =>
    intro f member
    rcases List.mem_append.mp member with before | last
    · exact each f before
    · cases List.mem_singleton.mp last
      have typed : v.type = c.type := by
        rcases made with ⟨type, rfl⟩ | ⟨type, rfl⟩
        · rw [type]
          rfl
        · rw [type]
          rfl
      refine ⟨⟨c, column, rfl⟩, typed, fun null => ?_⟩
      simp [Field.ofValue] at null

theorem Identifies.keys {t : Table} {fields fields' : List Field} {fresh : Identifier} {identity : String}
    (identifies : t.Identifies fields fresh identity fields') (table : String) :
    t.Keys (.ofFields table fields') identity := by
  cases identifies with
  | unkeyed free =>
    simp only [Keys, free]
    exact Identifier.isLayout_iff.mpr fresh.hasLayout_text
  | @supplied k f key found solid =>
    simp only [Keys, key]
    exact ⟨f, f.value, found, by simp [Field.value?, solid], rfl⟩
  | @synthesized k c v key absent column made =>
    -- The made-up key is the last field, and no other field has its name.
    have text : v.text = fresh.text := by
      rcases made with ⟨-, rfl⟩ | ⟨-, rfl⟩
      · rfl
      · rfl
    have none : fields.find? (·.name == k.column) = none := List.find?_eq_none.mpr fun f member => by
      simpa using absent f member
    simp only [Keys, key]
    refine ⟨.ofValue k.column c.type v, v, ?_, rfl, text⟩
    simp [Row.field?, Row.ofFields, List.find?_append, none, Field.ofValue]

end Table

theorem sound_of_row {db : Database} {limit : Nat} {i : Sql.Insert} {fresh : Identifier} {identity : String}
    {row : Row} (made : i.row db fresh = .ok (identity, row)) (fits : row.encode.length ≤ min limit maxRowSize) :
    SoundUnit db limit row.table identity row.encode := by
  obtain ⟨t, coerced, fields, found, coerces, identifies, rfl⟩ := Sql.Insert.row_eq_ok_iff.mp made
  have short : (Row.ofFields t.name fields).encode.length < 2 ^ 64 := by
    have : maxRowSize < 2 ^ 64 := by decide
    omega
  have each : ∀ f ∈ coerced, f.Fits t := by
    intro f member
    obtain ⟨_, -, coerced⟩ := exists_of_forall₂ (Table.coerce_eq_ok_iff.mp coerces).2 member
    exact coerced.fits
  have named : db.table t.name = .ok t := by
    rw [← Database.name_of_table? found] at found
    rw [Database.table, found]
  exact ⟨fits, _, t, Row.decode_encode short, rfl, named, rfl, identifies.fits each, identifies.keys t.name⟩

theorem sound_of_calls {σ : Type} [Storage σ] [LawfulStorage σ] (db : Database) (limit : Nat) {store : σ}
    (empty : LawfulStorage.units store = Units.empty) (cs : List Call) {space key : String} {bs : Bytes}
    (found : LawfulStorage.units (((RowStore.ofSchema db).withLimit limit).calls store cs).2 space key = some bs) :
    SoundUnit db limit space key bs := by
  refine RowStore.units_of_calls (fun c i identity row _ made fits => sound_of_row made fits) ?_ cs space key bs found
  intro space key bs found
  rw [empty] at found
  simp [Units.empty] at found

/-- From an empty storage on, in memory or in files, statements write nothing but sound units. -/
theorem stored_units_sound (db : Database) (limit : Nat) (cs : List Call) :
    (∀ space key bs, (((RowStore.ofSchema db).withLimit limit).calls Memory.empty cs).2.find? space key = some bs →
      SoundUnit db limit space key bs) ∧
    ∀ d : Disk, d.units = Units.empty → ∀ space key bs,
      (((RowStore.ofSchema db).withLimit limit).calls d cs).2.units space key = some bs →
        SoundUnit db limit space key bs := by
  constructor
  · intro space key bs found
    have empty : LawfulStorage.units Memory.empty = Units.empty := rfl
    exact sound_of_calls db limit empty cs found
  · intro d empty space key bs found
    exact @sound_of_calls Disk _ _ db limit d empty cs _ _ _ found

def numbers : Database :=
  { Database.blank "numbers" with tables := [⟨"t", [⟨"n", .int⟩], [⟨"key", "n", true, true, true, none, none⟩]⟩] }

def insertSeven : Call :=
  ⟨.session, "INSERT INTO t VALUES (7);", .zero⟩

theorem stored_units_sound_seven :
    SoundUnit numbers 100 "t" "7" (Row.ofFields "t" [.ofValue "n" .int (.int 7)]).encode := by
  let d : Disk := ⟨.empty, ⟨"data"⟩⟩
  let row : Row := .ofFields "t" [.ofValue "n" .int (.int 7)]
  let s := (RowStore.ofSchema numbers).withLimit 100
  have parsed : Sql.Statement.parse insertSeven.sql = .ok (.insert ⟨"t", .all, ["7"]⟩) := by cbv
  have made : Sql.Insert.row ⟨"t", .all, ["7"]⟩ s.schema insertSeven.fresh = .ok ("7", row) := by cbv
  have fits : row.encode.length ≤ s.limit := by decide
  have written : Storage.write d "t" "7" row.encode = (.ok (), (Storage.write d "t" "7" row.encode).2) :=
    Prod.ext (by decide) rfl
  have called : s.call d insertSeven = (.result (.ok (.inserted "7")), (Storage.write d "t" "7" row.encode).2) := by
    rw [RowStore.call_of_parse parsed, RowStore.runStatement, RowStore.runInsert_of_written made fits written]
    rfl
  apply (stored_units_sound numbers 100 [insertSeven]).2 d (Disk.units_of_empty _)
  change (s.call d insertSeven).2.units "t" "7" = _
  rw [called, Disk.units_of_write written, Units.set_self]

end RowBase
