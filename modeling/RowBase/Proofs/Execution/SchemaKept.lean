import RowBase.Proofs.Execution.InsertedRows
import RowBase.Proofs.Storage.DiskUnits
import RowBase.Proofs.Storage.SchemaFile
import RowBase.Registry

namespace RowBase

structure Access where
  database : OpenDatabase
  call : Call

namespace FileTree

def access (t : FileTree) (a : Access) : Reply × FileTree :=
  (a.database.rows.call (a.database.disk t) a.call).map id Disk.tree

/-- The place of the row that an access has inserted, if it has inserted one. -/
def inserted? (t : FileTree) (a : Access) : Option (List String) :=
  (a.call.inserted? (t.access a).1).map fun row => a.database.root.place ++ [row.1, row.2]

def afterAll (t : FileTree) (as : List Access) : FileTree :=
  as.foldl (fun t a => (t.access a).2) t

def insertedPlaces (t : FileTree) : List Access → List (List String)
  | [] => []
  | a :: as => (t.inserted? a).toList ++ (t.access a).2.insertedPlaces as

variable {t : FileTree}

theorem access_cases (t : FileTree) (a : Access) :
    ∃ names t₁, GrownAlong names t t₁ ∧
      ((∃ p bs, t.inserted? a = some p.place ∧ t₁.write p bs = .ok (t.access a).2) ∨
        t.inserted? a = none ∧ (t.access a).2 = t₁) := by
  have inserted : t.inserted? a = (a.call.inserted? (a.database.rows.call (a.database.disk t) a.call).1).map
      fun row => a.database.root.place ++ [row.1, row.2] := rfl
  obtain ⟨i, identity, row, -, -, told, written⟩ | ⟨told, store⟩ :=
    a.database.rows.call_writes (a.database.disk t) a.call
  · obtain ⟨tableName, keyName, -, t₁, grown, written⟩ := Disk.write_eq_ok written
    refine ⟨_, t₁, grown, .inl ⟨_, _, ?_, written⟩⟩
    rw [inserted, told, FilePath.place_unit _ (isPlainName_of_isUnitName tableName) (isPlainName_of_isUnitName keyName)]
    rfl
  · rw [told, Option.map_none] at inserted
    rcases store with same | ⟨space, key, bs, e, refused⟩
    · exact ⟨[], t, .refl _ t, .inr ⟨inserted, congrArg Disk.tree same⟩⟩
    · exact ⟨_, _, (Disk.grown_of_refused refused).2, .inr ⟨inserted, rfl⟩⟩

theorem read_of_access {a : Access} {p : FilePath} {bs : Bytes} (apart : t.inserted? a ≠ some p.place)
    (read : t.read p = .ok bs) : (t.access a).2.read p = .ok bs := by
  obtain ⟨names, t₁, grown, ⟨q, content, inserted, written⟩ | ⟨-, same⟩⟩ := t.access_cases a
  · refine read_of_other_write written (fun same => ?_) (grown.read_eq read)
    rw [inserted, same] at apart
    exact apart rfl
  · rw [same]
    exact grown.read_eq read

theorem read_of_accesses {as : List Access} {p : FilePath} {bs : Bytes} (apart : p.place ∉ t.insertedPlaces as)
    (read : t.read p = .ok bs) : (t.afterAll as).read p = .ok bs := by
  induction as generalizing t with
  | nil => exact read
  | cons a as ih =>
    simp only [insertedPlaces, List.mem_append, Option.mem_toList, not_or] at apart
    exact ih apart.2 (read_of_access apart.1 read)

theorem file?_of_accesses {as : List Access} (none : t.insertedPlaces as = []) : (t.afterAll as).file? = t.file? := by
  induction as generalizing t with
  | nil => rfl
  | cons a as ih =>
    simp only [insertedPlaces, List.append_eq_nil_iff, Option.toList_eq_nil_iff] at none
    refine (ih none.2).trans ?_
    obtain ⟨names, t₁, grown, ⟨q, content, inserted, -⟩ | ⟨-, same⟩⟩ := t.access_cases a
    · simp [inserted] at none
    · rw [same, grown.file?_eq]

theorem eq_of_mem_insertedPlaces {as : List Access} {place : List String} (member : place ∈ t.insertedPlaces as) :
    ∃ a ∈ as, ∃ table identity, place = a.database.root.place ++ [table, identity] := by
  induction as generalizing t with
  | nil => simp [insertedPlaces] at member
  | cons a as ih =>
    simp only [insertedPlaces, List.mem_append, Option.mem_toList, inserted?, Option.map_eq_some_iff] at member
    rcases member with ⟨row, -, rfl⟩ | later
    · exact ⟨a, by simp, _, _, rfl⟩
    · obtain ⟨b, inside, place⟩ := ih later
      exact ⟨b, by simp [inside], place⟩

end FileTree

theorem Config.place_of_plain {c : Config} (plain : IsPlainName c.schemaFile) :
    c.schemaPath.place = c.dataDir.place ++ [c.schemaFile] :=
  c.dataDir.place_join plain

theorem Config.openDatabase_of_load {c : Config} {t : FileTree} {db : Database} (valid : c.validate = .ok ())
    (loaded : Database.load c t = .ok db) :
    c.openDatabase t = .ok ⟨(RowStore.ofSchema db).withLimit c.maxRowSize.toNat, c.dataDir⟩ := by
  rw [openDatabase, valid, loaded]
  rfl

/-- A schema that was saved is loaded again after any statements on any databases, as long as none of them has inserted
a row at the place of the schema file. None can do so on a database in the same directory, unless the schema file has
been given a place below a directory of the data directory. -/
theorem schema_outlives_rows {c : Config} {db : Database} {t t' : FileTree} {n : Nat} (small : db.encode.length < 2 ^ 64)
    (saved : db.save c t = (.ok n, t')) (as : List Access) :
    (c.schemaPath.place ∉ t'.insertedPlaces as → Database.load c (t'.afterAll as) = .ok db) ∧
    ((∀ table key, c.schemaPath.place ≠ c.dataDir.place ++ [table, key]) → (∀ a ∈ as, a.database.root.place = c.dataDir.place) →
      Database.load c (t'.afterAll as) = .ok db) := by
  obtain ⟨valid, -, written⟩ := Database.save_eq_ok_iff.mp saved
  have read := (FileTree.file?_of_save written).1
  have kept (apart : c.schemaPath.place ∉ t'.insertedPlaces as) : Database.load c (t'.afterAll as) = .ok db :=
    Database.load_of_read small valid (FileTree.read_of_accesses apart read)
  refine ⟨kept, fun apart inside => kept fun member => ?_⟩
  obtain ⟨a, among, table, key, place⟩ := FileTree.eq_of_mem_insertedPlaces member
  rw [inside a among] at place
  exact apart table key place

def usersTable : Table :=
  ⟨"users", [⟨"id", .string⟩], [⟨"key", "id", true, true, true, none, none⟩]⟩

def userSchema : Database :=
  { Database.blank "app" with tables := [usersTable] }

def userRows (c : Config) : OpenDatabase :=
  ⟨(RowStore.ofSchema userSchema).withLimit c.maxRowSize.toNat, c.dataDir⟩

def insertUser (c : Config) : Access :=
  ⟨userRows c, .connection, "INSERT INTO users VALUES ('schema');", .zero⟩

theorem parse_insertUser (c : Config) :
    Sql.Statement.parse (insertUser c).call.sql = .ok (.insert ⟨"users", .all, ["schema"]⟩) := by
  change Sql.Statement.parse "INSERT INTO users VALUES ('schema');" = _
  cbv

theorem access_insertUser (c : Config) (t : FileTree) :
    t.access (insertUser c) =
      (Handle.connection.reply ((userRows c).rows.runInsert ((userRows c).disk t) .zero ⟨"users", .all, ["schema"]⟩).result,
        ((userRows c).rows.runInsert ((userRows c).disk t) .zero ⟨"users", .all, ["schema"]⟩).store.tree) := by
  rw [FileTree.access, RowStore.call_of_parse (parse_insertUser c)]
  rfl

def configAt (schemaFile : String) : Config :=
  { dataConfig with schemaFile }

def savedAt (schemaFile : String) : FileTree :=
  (userSchema.save (configAt schemaFile) .empty).2

theorem schema_outlives_rows_users :
    userSchema.encode.length < 2 ^ 64 ∧
    (userSchema.save (configAt "schema") .empty = (.ok userSchema.encode.length, savedAt "schema") ∧
      (∀ table key, (configAt "schema").schemaPath.place ≠ (configAt "schema").dataDir.place ++ [table, key]) ∧
      (∀ a ∈ [insertUser (configAt "schema")], a.database.root.place = (configAt "schema").dataDir.place) ∧
      Database.load (configAt "schema") ((savedAt "schema").afterAll [insertUser (configAt "schema")]) = .ok userSchema) ∧
    userSchema.save (configAt "users/app") .empty = (.ok userSchema.encode.length, savedAt "users/app") ∧
      (savedAt "users/app").insertedPlaces [insertUser (configAt "users/app")] = [["data", "users", "schema"]] ∧
      (configAt "users/app").schemaPath.place = ["data", "users", "app"] ∧
      Database.load (configAt "users/app") ((savedAt "users/app").afterAll [insertUser (configAt "users/app")]) =
        .ok userSchema := by
  have small : userSchema.encode.length < 2 ^ 64 := by decide +kernel
  have beside : userSchema.save (configAt "schema") .empty = (.ok userSchema.encode.length, savedAt "schema") :=
    Prod.ext (by decide +kernel) rfl
  have apart : ∀ table key, (configAt "schema").schemaPath.place ≠ (configAt "schema").dataDir.place ++ [table, key] := by
    intro table key
    rw [Config.place_of_plain (isPlainName_of_isUnitName (by decide))]
    simp
  have inside : ∀ a ∈ [insertUser (configAt "schema")], a.database.root.place = (configAt "schema").dataDir.place :=
    List.forall_mem_singleton.mpr rfl
  have below : userSchema.save (configAt "users/app") .empty = (.ok userSchema.encode.length, savedAt "users/app") :=
    Prod.ext (by decide +kernel) rfl
  have inserted : (savedAt "users/app").insertedPlaces [insertUser (configAt "users/app")] = [["data", "users", "schema"]] := by
    have row : (savedAt "users/app").inserted? (insertUser (configAt "users/app")) = some ["data", "users", "schema"] := by
      rw [FileTree.inserted?, Call.inserted?, parse_insertUser, access_insertUser]
      decide +kernel
    rw [FileTree.insertedPlaces, row]
    rfl
  have place : (configAt "users/app").schemaPath.place = ["data", "users", "app"] := by decide
  have other : (configAt "users/app").schemaPath.place ∉
      (savedAt "users/app").insertedPlaces [insertUser (configAt "users/app")] := by
    rw [inserted, place]
    decide
  exact ⟨small, ⟨beside, apart, inside, (schema_outlives_rows small beside _).2 apart inside⟩, below, inserted, place,
    (schema_outlives_rows small below _).1 other⟩

/-- A row is written over a schema file that has been given the place of the row. -/
theorem row_replaces_schema : ¬∀ (c : Config) (db : Database) (t t' : FileTree) (n : Nat) (as : List Access),
    db.encode.length < 2 ^ 64 → c.validate = .ok () → db.save c t = (.ok n, t') →
      (∀ a ∈ as, c.openDatabase t' = .ok a.database) → Database.load c (t'.afterAll as) = .ok db := by
  intro outlives
  have small : userSchema.encode.length < 2 ^ 64 := by decide +kernel
  have valid : (configAt "users/schema").validate = .ok () := by decide
  have saved : userSchema.save (configAt "users/schema") .empty = (.ok userSchema.encode.length, savedAt "users/schema") :=
    Prod.ext (by decide +kernel) rfl
  have loaded : Database.load (configAt "users/schema") (savedAt "users/schema") = .ok userSchema := by decide +kernel
  have opened := Config.openDatabase_of_load valid loaded
  have kept := outlives _ _ _ _ _ [insertUser (configAt "users/schema")] small valid saved
    (List.forall_mem_singleton.mpr opened)
  rw [FileTree.afterAll, List.foldl_cons, List.foldl_nil, access_insertUser] at kept
  revert kept
  decide +kernel

end RowBase
