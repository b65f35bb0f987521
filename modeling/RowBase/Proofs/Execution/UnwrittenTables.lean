import RowBase.Proofs.Execution.Scan
import RowBase.Proofs.Execution.SchemaKept
import RowBase.Proofs.Storage.FreshDisk

namespace RowBase

namespace Sql.Grammar

theorem isUnitName_of_word {n : String} (word : IsWord n.toList) : isUnitName n = true := by
  have apart {c d : Char} (member : c ∈ n.toList) (other : ¬IsWordChar d) : c ≠ d := by
    rintro rfl
    exact other (word.all c member)
  have filled : n ≠ "" := by
    rintro rfl
    cases word
  have notDot : n ≠ "." := by
    rintro rfl
    exact apart (c := '.') (d := '.') (by decide) (by decide) rfl
  have notUp : n ≠ ".." := by
    rintro rfl
    exact apart (c := '.') (d := '.') (by decide) (by decide) rfl
  have chars (c : Char) (member : c ∈ n.toList) : (c != '/' && c != '\\' && c.toNat != 0) = true := by
    have noNul : c.toNat ≠ 0 := fun nul => apart (d := '\x00') member (by decide) (Char.toNat_inj.mp nul)
    simp [apart (d := '/') member (by decide), apart (d := '\\') member (by decide), noNul]
  simpa [isUnitName, filled, notDot, notUp] using chars

theorem isUnitName_of_spells {ends : Char → Prop} {n : String} {w rest : List Char} (spells : Spells ends (.name n) w rest) :
    isUnitName n = true := by
  cases spells with
  | plainName word => exact isUnitName_of_word (by rwa [String.toList_ofList])
  | @keywordName k _ _ _ spelled =>
    rw [← asName_eq spelled]
    cases k <;> decide

theorem isUnitName_of_select {sql : String} {q : Select} (parsed : Statement.parse sql = .ok (.select q)) :
    isUnitName q.table = true := by
  obtain ⟨ls, rest, sentence, opens, -⟩ := spelling_of_parse parsed
  obtain ⟨columns, table, -, rfl, rfl⟩ := sentence_select_iff.mp sentence
  obtain ⟨mid, -, opens⟩ := opens_append_iff.mp opens
  obtain ⟨mid, -, opens⟩ := opens_cons_iff.mp opens
  obtain ⟨mid, opens, -⟩ := opens_cons_iff.mp opens
  obtain ⟨gap, w, -, -, spells⟩ := opens_singleton_iff.mp opens
  exact isUnitName_of_spells spells

end Sql.Grammar

/-- The schema file lies neither at the directory of a table nor on the way to it. It is no row of the table, should it
lie in the directory. -/
structure Config.Spares (c : Config) (db : Database) (table : Table) : Prop where
  way : ∀ way, way <+: c.dataDir.names ++ [table.name] → FileTree.follow [] way ≠ c.schemaPath.place
  row : ∀ key, c.dataDir.place ++ [table.name, key] = c.schemaPath.place →
    ∀ r, rowOfUnit table.columnNames (key, .ok db.encode) ≠ .ok r

theorem Config.spares_of_ne {c : Config} {t : FileTree} (fresh : Disk.Fresh ⟨t, c.dataDir⟩) (plain : IsPlainName c.schemaFile)
    {table : Table} (unit : isUnitName table.name = true) (other : table.name ≠ c.schemaFile) (db : Database) :
    c.Spares db table where
  way way along same := by
    rw [c.place_of_plain plain] at same
    rcases List.prefix_concat_iff.mp along with rfl | before
    · rw [FileTree.follow_concat _ (isPlainName_of_isUnitName unit).notUp] at same
      exact other (List.singleton_inj.mp (List.append_cancel_left same))
    · exact fresh.outside way before _ (by simp) same
  row key same := by
    rw [c.place_of_plain plain] at same
    simp at same

section Unwritten

variable {c : Config} {db : Database} {table : Table} {t t' : FileTree}
  (files : ∀ place, t'.file? place = if place = c.schemaPath.place then some db.encode else t.file? place)

include files

theorem passable_of_spared (bare : Disk.Bare ⟨t, c.dataDir⟩) (spared : c.Spares db table) (unit : isUnitName table.name = true)
    (short : table.name.utf8ByteSize ≤ 255) : t'.Passable (c.dataDir.names ++ [table.name]) := by
  have down := (isPlainName_of_isUnitName unit).notUp
  have passable : t.Passable (c.dataDir.names ++ [table.name]) :=
    bare.passable.concat down (FileTree.isTooLong_eq_false_iff.mpr short) (bare.free [table.name] (by simp))
  refine ⟨passable.short, fun way along => ?_⟩
  rw [files, if_neg (spared.way way along)]
  exact passable.free way along

theorem scanTable_of_spared (bare : Disk.Bare ⟨t, c.dataDir⟩) (spared : c.Spares db table)
    (named : (UnitCall.keys table.name).Named) (fits : (UnitCall.keys table.name).Fits c.dataDir) :
    (scanTable (⟨t', c.dataDir⟩ : Disk) table.name table.columnNames []).1 = .ok [] := by
  obtain ⟨unit, short⟩ := named table.name (by simp [UnitCall.names])
  have passable := passable_of_spared files bare spared unit short
  have listed : ∃ keys, Storage.keys (⟨t', c.dataDir⟩ : Disk) table.name = .ok keys := by
    rcases Disk.keys_of_passable (d := ⟨t', c.dataDir⟩) bare.clean named fits passable with keys | ⟨keys, -⟩
    · exact ⟨_, keys⟩
    · exact ⟨_, keys⟩
  obtain ⟨keys, listed⟩ := listed
  refine scanTable_of_no_row listed (fun key _ bs found r => ?_) []
  -- The only file that may lie in the directory is the schema.
  have stored := Disk.units_of_read found
  change t'.file? (c.dataDir.place ++ [table.name, key]) = some bs at stored
  have free : t.file? (c.dataDir.place ++ [table.name, key]) = none := bare.free _ (by simp)
  rw [files, free] at stored
  by_cases place : c.dataDir.place ++ [table.name, key] = c.schemaPath.place
  · rw [if_pos place, Option.some.injEq] at stored
    rw [← stored]
    exact spared.row key place r
  · simp [place] at stored

end Unwritten

/-- After a schema was saved where no other file is, the database can be opened at any time before the first row is
inserted, and every table of it that the schema file spares is empty until then. A name stands for the first table
that has it. -/
theorem unwritten_table_is_empty {c : Config} {db : Database} {t t' : FileTree} {n : Nat} (valid : c.validate = .ok ())
    (bare : Disk.Bare ⟨t, c.dataDir⟩) (small : db.encode.length < 2 ^ 64) (saved : db.save c t = (.ok n, t')) :
    ∃ o, ∀ as, t'.insertedPlaces as = [] → c.openDatabase (t'.afterAll as) = .ok o ∧
      ∀ name table call, db.table? name = some table → Sql.Statement.parse call.sql = .ok (.select ⟨name, .all⟩) →
        name.utf8ByteSize ≤ 255 → (UnitCall.keys name).Fits c.dataDir → c.Spares db table →
          ((t'.afterAll as).access ⟨o, call⟩).1 = call.handle.reply (.ok (.selected table.columnNames [])) := by
  obtain ⟨tables, -, written⟩ := Database.save_eq_ok_iff.mp saved
  obtain ⟨read, files⟩ := FileTree.file?_of_save written
  refine ⟨⟨(RowStore.ofSchema db).withLimit c.maxRowSize.toNat, c.dataDir⟩, fun as none => ?_⟩
  have loaded : Database.load c (t'.afterAll as) = .ok db :=
    Database.load_of_read small tables (FileTree.read_of_accesses (by simp [none]) read)
  refine ⟨Config.openDatabase_of_load valid loaded, fun name table call found parsed short fits spared => ?_⟩
  obtain rfl := Database.name_of_table? found
  rw [← FileTree.file?_of_accesses none] at files
  have named : (UnitCall.keys table.name).Named := by
    simpa [UnitCall.Named, UnitCall.names, short] using Sql.Grammar.isUnitName_of_select parsed
  have rows := scanTable_of_spared files bare spared named fits
  have target : Sql.Select.target ⟨table.name, .all⟩ db = .ok (table.name, table.columnNames) :=
    Sql.Select.target_eq_ok_iff.mpr ⟨table, found, fun _ member => member, rfl, rfl⟩
  have result : (((RowStore.ofSchema db).withLimit c.maxRowSize.toNat).runSelect
      (⟨t'.afterAll as, c.dataDir⟩ : Disk) ⟨table.name, .all⟩).result = .ok (.selected table.columnNames []) := by
    have schema : ((RowStore.ofSchema db).withLimit c.maxRowSize.toNat).schema = db := rfl
    simp only [RowStore.runSelect, schema, target, rows]
    rfl
  rw [FileTree.access, RowStore.call_of_parse parsed]
  exact congrArg call.handle.reply result

def selectRows (table : String) : Call :=
  ⟨.connection, "SELECT * FROM " ++ table ++ ";", .zero⟩

theorem parse_selectRows_users : Sql.Statement.parse (selectRows "users").sql = .ok (.select ⟨"users", .all⟩) := by
  change Sql.Statement.parse "SELECT * FROM users;" = _
  cbv

theorem unwritten_table_is_empty_users :
    (configAt "schema").validate = .ok () ∧ Disk.Bare ⟨.empty, (configAt "schema").dataDir⟩ ∧
    userSchema.encode.length < 2 ^ 64 ∧
    userSchema.save (configAt "schema") .empty = (.ok userSchema.encode.length, savedAt "schema") ∧
    (configAt "schema").Spares userSchema usersTable ∧
    ∃ o, (savedAt "schema").insertedPlaces [⟨o, selectRows "users"⟩] = [] ∧
      (configAt "schema").openDatabase ((savedAt "schema").afterAll [⟨o, selectRows "users"⟩]) = .ok o ∧
      (((savedAt "schema").afterAll [⟨o, selectRows "users"⟩]).access ⟨o, selectRows "users"⟩).1 =
        Handle.connection.reply (.ok (.selected ["id"] [])) := by
  have valid : (configAt "schema").validate = .ok () := by decide
  have fresh : Disk.Fresh ⟨.empty, (configAt "schema").dataDir⟩ := Disk.fresh_of_empty (by decide) (by decide)
  have small : userSchema.encode.length < 2 ^ 64 := by decide +kernel
  have saved : userSchema.save (configAt "schema") .empty = (.ok userSchema.encode.length, savedAt "schema") :=
    Prod.ext (by decide +kernel) rfl
  have spared : (configAt "schema").Spares userSchema usersTable :=
    Config.spares_of_ne fresh (isPlainName_of_isUnitName (by decide)) (by decide) (by decide) userSchema
  obtain ⟨o, opens⟩ := unwritten_table_is_empty valid fresh.bare small saved
  have none : (savedAt "schema").insertedPlaces [⟨o, selectRows "users"⟩] = [] := by
    simp [FileTree.insertedPlaces, FileTree.inserted?, Call.inserted?, parse_selectRows_users]
  obtain ⟨opened, empty⟩ := opens _ none
  exact ⟨valid, fresh.bare, small, saved, spared, o, none, opened,
    empty "users" usersTable (selectRows "users") rfl parse_selectRows_users (by decide) (by decide) spared⟩

def schemaTable : Table :=
  ⟨"schema", [⟨"n", .int⟩], []⟩

def selfNamedSchema : Database :=
  { Database.blank "app" with tables := [schemaTable] }

/-- The schema file lies where the directory of a table of the same name would be. -/
theorem schema_in_place_of_table : ¬∀ (c : Config) (db : Database) (t t' : FileTree) (n : Nat) (o : OpenDatabase)
    (table : Table) (call : Call), c.validate = .ok () → Disk.Fresh ⟨t, c.dataDir⟩ → db.encode.length < 2 ^ 64 →
      db.save c t = (.ok n, t') → c.openDatabase t' = .ok o → db.table? table.name = some table →
      Sql.Statement.parse call.sql = .ok (.select ⟨table.name, .all⟩) → table.name.utf8ByteSize ≤ 255 →
      (UnitCall.keys table.name).Fits c.dataDir →
        (t'.access ⟨o, call⟩).1 = call.handle.reply (.ok (.selected table.columnNames [])) := by
  intro empty
  have fresh : Disk.Fresh ⟨.empty, (configAt "schema").dataDir⟩ := Disk.fresh_of_empty (by decide) (by decide)
  have small : selfNamedSchema.encode.length < 2 ^ 64 := by decide +kernel
  have saved : selfNamedSchema.save (configAt "schema") .empty =
      (.ok selfNamedSchema.encode.length, (selfNamedSchema.save (configAt "schema") .empty).2) :=
    Prod.ext (by decide +kernel) rfl
  have loaded : Database.load (configAt "schema") (selfNamedSchema.save (configAt "schema") .empty).2 = .ok selfNamedSchema := by
    decide +kernel
  have opened := Config.openDatabase_of_load (by decide) loaded
  have parsed : Sql.Statement.parse (selectRows "schema").sql = .ok (.select ⟨"schema", .all⟩) := by
    change Sql.Statement.parse "SELECT * FROM schema;" = _
    cbv
  have reply := empty _ _ _ _ _ _ schemaTable (selectRows "schema") (by decide) fresh small saved opened rfl parsed (by decide)
    (by decide)
  rw [FileTree.access, RowStore.call_of_parse parsed] at reply
  have result := Reply.cursor.inj reply
  revert result
  decide +kernel

end RowBase
