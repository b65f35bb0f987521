import RowBase.Proofs.Encoding.Prefixes
import RowBase.Proofs.Execution.Scan
import RowBase.Proofs.Storage.Units

namespace RowBase

section Scans

variable {σ : Type} [Storage σ]

/-- A start of the encoding of a row is read, but not the whole of it. -/
def IsTorn (read : Except Error (Option Bytes)) : Prop :=
  ∃ (r : Row) (k : Nat), r.encode.length < 2 ^ 64 ∧ k < r.encode.length ∧ read = .ok (some (r.encode.take k))

/-- The units of the first storage, of which some, given by namespace and key, are torn in the second. -/
structure Tears (cut : List (String × String)) (store torn : σ) : Prop where
  listed : ∀ space, Storage.keys torn space = Storage.keys store space
  kept : ∀ space key, (space, key) ∉ cut → Storage.read torn space key = Storage.read store space key
  tears : ∀ space key, (space, key) ∈ cut → IsTorn (Storage.read torn space key)

def rowAt (store : σ) (table : String) (columns : List String) (key : String) : Option Row :=
  (account store table columns key).bind okPart

def warningAt (store : σ) (table : String) (columns : List String) (key : String) : Option Warning :=
  (account store table columns key).bind errorPart

theorem scanTable_eq_rowAt {store : σ} {table : String} {keys : List String}
    (listed : Storage.keys store table = .ok keys) (columns : List String) (filters : List Filter) :
    scanTable store table columns filters = (.ok (keys.filterMap (rowAt store table columns)),
      (if filters = [] then [] else [.filtersIgnored]) ++ keys.filterMap (warningAt store table columns)) := by
  rw [scanTable_of_keys listed, List.filterMap_map, List.filterMap_map]
  rfl

theorem account_of_torn {store : σ} {table key : String} (torn : IsTorn (Storage.read store table key))
    (columns : List String) : account store table columns key = some (.error (.decodeFailed key)) := by
  obtain ⟨r, k, small, cut, read⟩ := torn
  obtain ⟨f, refused⟩ := Row.steady.decode_take (Row.restores small) cut
  have refused : Row.decode (r.encode.take k) = .error f := refused
  simp only [account, Storage.unit?, read, Option.map_some, rowOfUnit, refused]

theorem Tears.account_eq {cut : List (String × String)} {store torn : σ} (tears : Tears cut store torn)
    (table : String) (columns : List String) (key : String) :
    account torn table columns key = if (table, key) ∈ cut then some (.error (.decodeFailed key))
      else account store table columns key := by
  by_cases among : (table, key) ∈ cut
  · rw [if_pos among, account_of_torn (tears.tears table key among)]
  · rw [if_neg among, account, account, Storage.unit?, Storage.unit?, tears.kept table key among]

theorem Tears.rows_eq {cut : List (String × String)} {store torn : σ} (tears : Tears cut store torn)
    (table : String) (columns keys : List String) :
    keys.filterMap (rowAt torn table columns) =
      (keys.filter fun key => (table, key) ∉ cut).filterMap (rowAt store table columns) := by
  rw [List.filterMap_filter]
  congr 1
  funext key
  rw [rowAt, tears.account_eq, rowAt]
  by_cases among : (table, key) ∈ cut
  · simp [among, okPart]
  · simp [among]

theorem Tears.warnings_eq {cut : List (String × String)} {store torn : σ} (tears : Tears cut store torn)
    (table : String) (columns keys : List String) :
    keys.filterMap (warningAt torn table columns) = keys.filterMap fun key =>
      if (table, key) ∈ cut then some (.decodeFailed key) else warningAt store table columns key := by
  congr 1
  funext key
  rw [warningAt, tears.account_eq, warningAt]
  by_cases among : (table, key) ∈ cut
  · simp [among, errorPart]
  · simp [among]

end Scans

theorem Database.load_of_torn {c : Config} {t : FileTree} {db : Database} {k : Nat}
    (small : db.encode.length < 2 ^ 64) (cut : k < db.encode.length)
    (stored : t.load c.schemaPath = .ok (db.encode.take k)) : ∃ f, Database.load c t = .error (.undecodable f) := by
  obtain ⟨f, refused⟩ := Database.steady.decode_take (Database.restores small) cut
  have refused : Database.decode (db.encode.take k) = .error f := refused
  refine ⟨f, ?_⟩
  rw [Database.load, stored]
  simp only [bind, Except.bind, refused]
  rfl

/-- Whatever was not written to its end is not read. A scan leaves out the rows whose units are torn, says so for
each of them, and gives all the others as before. -/
theorem torn_units_are_refused :
    ((∀ (r : Row) (k : Nat), r.encode.length < 2 ^ 64 → k < r.encode.length →
        ∃ f, Row.decode (r.encode.take k) = .error f) ∧
      (∀ (db : Database) (k : Nat), db.encode.length < 2 ^ 64 → k < db.encode.length →
        ∃ f, Database.decode (db.encode.take k) = .error f) ∧
      ∀ (c : Config) (k : Nat), c.encode.length < 2 ^ 64 → k < c.encode.length →
        ∃ f, Config.decode (c.encode.take k) = .error f) ∧
    (∀ (σ : Type) [Storage σ] (cut : List (String × String)) (store torn : σ), Tears cut store torn →
      ∀ (table : String) (columns : List String) (filters : List Filter) (keys : List String),
        Storage.keys store table = .ok keys →
          scanTable store table columns filters = (.ok (keys.filterMap (rowAt store table columns)),
            (if filters = [] then [] else [.filtersIgnored]) ++ keys.filterMap (warningAt store table columns)) ∧
          scanTable torn table columns filters =
            (.ok ((keys.filter fun key => (table, key) ∉ cut).filterMap (rowAt store table columns)),
              (if filters = [] then [] else [.filtersIgnored]) ++ keys.filterMap fun key =>
                if (table, key) ∈ cut then some (.decodeFailed key) else warningAt store table columns key)) ∧
    ∀ (c : Config) (t : FileTree) (db : Database) (k : Nat), db.encode.length < 2 ^ 64 → k < db.encode.length →
      t.load c.schemaPath = .ok (db.encode.take k) → ∃ f, Database.load c t = .error (.undecodable f) := by
  refine ⟨⟨?_, ?_, ?_⟩, ?_, ?_⟩
  · intro r k small cut
    exact Row.steady.decode_take (Row.restores small) cut
  · intro db k small cut
    exact Database.steady.decode_take (Database.restores small) cut
  · intro c k small cut
    exact Config.steady.decode_take (Config.restores small) cut
  · intro σ _ cut store torn tears table columns filters keys listed
    have same : Storage.keys torn table = .ok keys := by rw [tears.listed, listed]
    refine ⟨scanTable_eq_rowAt listed columns filters, ?_⟩
    rw [scanTable_eq_rowAt same, tears.rows_eq, tears.warnings_eq]
  · intro c t db k small cut stored
    exact Database.load_of_torn small cut stored

def shelf : Memory :=
  (Memory.empty.insert "t" "1" (Row.encode ⟨"t", [.ofValue "n" .int (.int 1)], false⟩)).insert "t" "2"
    (Row.encode ⟨"t", [.ofValue "n" .int (.int 2)], false⟩)

def tornShelf : Memory :=
  shelf.insert "t" "2" ((Row.encode ⟨"t", [.ofValue "n" .int (.int 2)], false⟩).take 17)

theorem tears_shelf : Tears [("t", "2")] shelf tornShelf where
  listed space := by
    have found : shelf.find? "t" "2" = some _ := Memory.find?_insert_self _ _ _ _
    exact congrArg _ (Memory.keys_insert_of_find? found _ _)
  kept space key other := by
    have apart : "t" ≠ space ∨ "2" ≠ key := by
      by_contra same
      simp_all
    exact congrArg _ (Memory.find?_insert_ne _ apart _)
  tears space key among := by
    obtain ⟨rfl, rfl⟩ : space = "t" ∧ key = "2" := by simpa using among
    exact ⟨_, 17, by decide, by decide, congrArg _ (Memory.find?_insert_self _ _ _ _)⟩

def tornSchema : FileTree :=
  (FileTree.empty.insert ["data"] .directory).insert ["data", "schema"] (.file ((Database.blank "test").encode.take 19))

theorem torn_units_are_refused_shelf :
    (∃ f, Row.decode ((Row.encode ⟨"t", [], false⟩).take 17) = .error f) ∧
    (∃ f, Config.decode (Config.standard.encode.take 0) = .error f) ∧
    (Tears [("t", "2")] shelf tornShelf ∧ Storage.keys shelf "t" = .ok ["1", "2"] ∧
      scanTable tornShelf "t" ["n"] [] = (.ok [⟨"t", [.ofValue "n" .int (.int 1)], false⟩], [.decodeFailed "2"])) ∧
    ∃ f, Database.load { Config.standard with dataDir := ⟨"data"⟩ } tornSchema = .error (.undecodable f) := by
  have listed : Storage.keys shelf "t" = .ok ["1", "2"] := by decide
  have scans := (torn_units_are_refused.2.1 Memory _ _ _ tears_shelf "t" ["n"] [] _ listed).2
  have row := torn_units_are_refused.1.1 ⟨"t", [], false⟩ 17 (by decide) (by decide)
  have config := torn_units_are_refused.1.2.2 .standard 0 (by decide) (by decide)
  have schema := torn_units_are_refused.2.2 { Config.standard with dataDir := ⟨"data"⟩ } tornSchema (.blank "test") 19
    (by decide) (by decide) (by decide)
  refine ⟨row, config, ⟨tears_shelf, listed, ?_⟩, schema⟩
  rw [scans]
  rfl

end RowBase
