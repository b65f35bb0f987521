import Mathlib.Control.Monad.Basic
import RowBase.Proofs.Encoding.Schema
import RowBase.Proofs.Storage.Files

namespace RowBase

theorem Except.forM_cases {ε α : Type} (f : α → Except ε Unit) (as : List α) :
    (as.forM f = .ok () ∧ ∀ a ∈ as, f a = .ok ()) ∨
      ∃ before a after e, as = before ++ a :: after ∧ (∀ b ∈ before, f b = .ok ()) ∧ f a = .error e ∧
        as.forM f = .error e := by
  induction as with
  | nil => exact .inl ⟨rfl, by simp⟩
  | cons a as ih =>
    have step : (a :: as).forM f = f a >>= fun _ => as.forM f := rfl
    cases first : f a with
    | error e => exact .inr ⟨[], a, as, e, rfl, by simp, first, by rw [step, first]; rfl⟩
    | ok =>
      have others : (a :: as).forM f = as.forM f := by rw [step, first]; rfl
      rw [others]
      rcases ih with ⟨passed, all⟩ | ⟨before, b, after, e, split, valid, invalid, failed⟩
      · exact .inl ⟨passed, by simpa using ⟨first, all⟩⟩
      · exact .inr ⟨a :: before, b, after, e, by rw [split]; rfl, by simpa using ⟨first, valid⟩, invalid, failed⟩

namespace Database

variable {db : Database} {c : Config} {t t' : FileTree}

theorem validate_eq_ok_iff : db.validate = .ok () ↔ ∀ table ∈ db.tables, table.validate = .ok () := by
  rw [validate]
  rcases Except.forM_cases Table.validate db.tables with ⟨passed, all⟩ | ⟨before, table, after, e, split, -, invalid, failed⟩
  · exact iff_of_true passed all
  · refine iff_of_false (by simp [failed]) fun all => ?_
    have valid := all table (by simp [split])
    simp [invalid] at valid

theorem decode_encode (small : db.encode.length < 2 ^ 64) : decode db.encode = .ok db :=
  (restores small).decode

theorem save_eq_ok_iff {n : Nat} : db.save c t = (.ok n, t') ↔ (∀ table ∈ db.tables, table.validate = .ok ()) ∧
    n = db.encode.length ∧ t.save c.schemaPath db.encode = (.ok (), t') := by
  rw [← validate_eq_ok_iff, save]
  cases db.validate with
  | error e => simp
  | ok =>
    rcases t.save c.schemaPath db.encode with ⟨_ | _, t₁⟩
    · simp [Except.map]
    · simp [Except.map, eq_comm]

theorem save_of_invalid {e : Error} (invalid : db.validate = .error e) : db.save c t = (.error e, t) := by
  rw [save, invalid]

theorem load_eq_ok_iff : load c t = .ok db ↔ ∃ bs, t.load c.schemaPath = .ok bs ∧ decode bs = .ok db ∧
    ∀ table ∈ db.tables, table.validate = .ok () := by
  simp only [load, ← validate_eq_ok_iff]
  cases t.load c.schemaPath with
  | error e => simp [bind, Except.bind]
  | ok bs =>
    simp only [bind, Except.bind, Except.ok.injEq, exists_eq_left']
    cases decode bs with
    | error f => simp [throw, throwThe, MonadExceptOf.throw]
    | ok db' =>
      cases valid : db'.validate with
      | error e =>
        simp only [valid, reduceCtorEq, Except.ok.injEq, false_iff, not_and]
        rintro rfl
        simp [valid]
      | ok =>
        simp only [valid, pure, Except.pure, Except.ok.injEq]
        constructor
        · rintro rfl
          exact ⟨rfl, valid⟩
        · exact fun same => same.1

theorem load_of_read (small : db.encode.length < 2 ^ 64) (valid : ∀ table ∈ db.tables, table.validate = .ok ())
    (read : t.read c.schemaPath = .ok db.encode) : load c t = .ok db :=
  load_eq_ok_iff.mpr ⟨_, FileTree.load_eq_ok_iff.mpr read, decode_encode small, valid⟩

end Database

/-- A valid schema is saved and loaded as it was, and the size of its file is told. A schema with an invalid table is
not saved, for the fault of the first such table, and no file is touched. Whatever bytes lie in the file, only a valid
schema is loaded, the one that they decode to. -/
theorem saved_schema_is_loaded :
    (∀ (db : Database) (c : Config) (t t' : FileTree), db.encode.length < 2 ^ 64 →
      (∀ table ∈ db.tables, table.validate = .ok ()) → t.save c.schemaPath db.encode = (.ok (), t') →
        db.save c t = (.ok db.encode.length, t') ∧ Database.load c t' = .ok db) ∧
    (∀ (db : Database) (c : Config) (t : FileTree), (∃ table ∈ db.tables, table.validate ≠ .ok ()) →
      ∃ before table after e, db.tables = before ++ table :: after ∧ (∀ u ∈ before, u.validate = .ok ()) ∧
        table.validate = .error e ∧ db.save c t = (.error e, t)) ∧
    ∀ (c : Config) (t : FileTree) (db : Database), Database.load c t = .ok db ↔ ∃ bs, t.load c.schemaPath = .ok bs ∧
      Database.decode bs = .ok db ∧ ∀ table ∈ db.tables, table.validate = .ok () := by
  refine ⟨fun db c t t' small valid written => ?_, fun db c t invalid => ?_, fun c t db => Database.load_eq_ok_iff⟩
  · have read := (FileTree.file?_of_save written).1
    exact ⟨Database.save_eq_ok_iff.mpr ⟨valid, rfl, written⟩, Database.load_of_read small valid read⟩
  · rcases Except.forM_cases Table.validate db.tables with ⟨-, all⟩ | ⟨before, table, after, e, split, valid, fault, failed⟩
    · obtain ⟨table, member, fault⟩ := invalid
      exact absurd (all table member) fault
    · exact ⟨before, table, after, e, split, valid, fault, Database.save_of_invalid failed⟩

def dataConfig : Config :=
  { Config.standard with dataDir := ⟨"data"⟩ }

def faultySchema : Database :=
  { eventSchema with tables := eventSchema.tables ++ [⟨"u", [], []⟩] }

def spoiledTree : FileTree :=
  (FileTree.empty.insert ["data"] .directory).insert ["data", "schema"] (.file [1, 2])

theorem saved_schema_is_loaded_events :
    (eventSchema.encode.length < 2 ^ 64 ∧ (∀ table ∈ eventSchema.tables, table.validate = .ok ()) ∧
      ∃ t', spoiledTree.save dataConfig.schemaPath eventSchema.encode = (.ok (), t') ∧
        eventSchema.save dataConfig spoiledTree = (.ok eventSchema.encode.length, t') ∧
        Database.load dataConfig t' = .ok eventSchema) ∧
    (∃ table ∈ faultySchema.tables, table.validate ≠ .ok ()) ∧
      ∃ before table after e, faultySchema.tables = before ++ table :: after ∧ (∀ u ∈ before, u.validate = .ok ()) ∧
        table.validate = .error e ∧ faultySchema.save dataConfig spoiledTree = (.error e, spoiledTree) := by
  have small : eventSchema.encode.length < 2 ^ 64 := by decide +kernel
  have valid : ∀ table ∈ eventSchema.tables, table.validate = .ok () := by decide
  have ok : (spoiledTree.save dataConfig.schemaPath eventSchema.encode).1 = .ok () := by decide +kernel
  have written : spoiledTree.save dataConfig.schemaPath eventSchema.encode = (.ok (), _) := Prod.ext ok rfl
  have invalid : ∃ table ∈ faultySchema.tables, table.validate ≠ .ok () := by decide
  exact ⟨⟨small, valid, _, written, saved_schema_is_loaded.1 _ _ _ _ small valid written⟩, invalid,
    saved_schema_is_loaded.2.1 _ dataConfig spoiledTree invalid⟩

end RowBase
