import RowBase.Proofs.Execution.SchemaKept
import RowBase.Proofs.Opening
import RowBase.Proofs.Text.Order

namespace RowBase

inductive RegistryCall
  | register (name : String) (config : Config)
  | openDatabase (name : String) (dir : FilePath) (t : FileTree)
  | drivers

inductive RegistryAnswer
  | registered
  | opened (db : OpenDatabase)
  | listed (names : List String)

namespace RegistryCall

/-- The configuration that a call would have the registry hold under a name. -/
def config? (name : String) : RegistryCall → Option Config
  | register name' c => if name' = name then some c else none
  | openDatabase _ _ _ | drivers => none

theorem config?_eq_some_iff {name : String} {call : RegistryCall} {c : Config} :
    call.config? name = some c ↔ call = .register name c := by
  cases call with
  | register name' c' =>
    rw [config?]
    by_cases same : name' = name
    · simp [same]
    · simp [same]
  | openDatabase | drivers => simp [config?]

/-- Among the calls, the first one that registers a name registers a configuration under it. -/
def FirstRegisters (calls : List RegistryCall) (name : String) (c : Config) : Prop :=
  ∃ before after, calls = before ++ .register name c :: after ∧ ∀ c', .register name c' ∉ before

theorem findSome?_eq_some_iff {calls : List RegistryCall} {name : String} {c : Config} :
    calls.findSome? (config? name) = some c ↔ FirstRegisters calls name c := by
  rw [List.findSome?_eq_some_iff]
  constructor
  · rintro ⟨before, call, after, split, first, none⟩
    rw [config?_eq_some_iff.mp first] at split
    refine ⟨before, after, split, fun c' member => ?_⟩
    have other := none _ member
    rw [config?_eq_some_iff.mpr rfl] at other
    cases other
  · rintro ⟨before, after, split, none⟩
    refine ⟨before, _, after, split, config?_eq_some_iff.mpr rfl, fun call member => ?_⟩
    refine Option.eq_none_iff_forall_ne_some.mpr fun c' registers => none c' ?_
    rwa [← config?_eq_some_iff.mp registers]

theorem findSome?_eq_none_iff {calls : List RegistryCall} {name : String} :
    calls.findSome? (config? name) = none ↔ ∀ c, .register name c ∉ calls := by
  rw [List.findSome?_eq_none_iff]
  constructor
  · intro none c member
    have other := none _ member
    rw [config?_eq_some_iff.mpr rfl] at other
    cases other
  · intro none call member
    refine Option.eq_none_iff_forall_ne_some.mpr fun c registers => none c ?_
    rwa [← config?_eq_some_iff.mp registers]

end RegistryCall

namespace Registry

def serve (r : Registry) : RegistryCall → Except Error RegistryAnswer × Registry
  | .register name c =>
    match r.register name c with
    | .ok r' => (.ok .registered, r')
    | .error e => (.error e, r)
  | .openDatabase name dir t => ((r.openDatabase name dir t).map .opened, r)
  | .drivers => (.ok (.listed r.drivers), r)

def after (calls : List RegistryCall) : Registry :=
  calls.foldl (fun r call => (r.serve call).2) .empty

section Serve

variable {r : Registry} {name : String} {c : Config}

theorem serve_register_of_some {c₀ : Config} (found : r.configs.find? name = some c₀) (c : Config) :
    r.serve (.register name c) = (.error (.driverRegistered name), r) := by
  simp only [serve, register, found]

theorem serve_register_of_none (unknown : r.configs.find? name = none) (c : Config) :
    r.serve (.register name c) = (.ok .registered, ⟨r.configs.insert name c⟩) := by
  simp only [serve, register, unknown]

theorem serve_open_of_some (found : r.configs.find? name = some c) (dir : FilePath) (t : FileTree) :
    r.serve (.openDatabase name dir t) = (({ c with dataDir := dir }.openDatabase t).map .opened, r) := by
  simp only [serve, openDatabase, found]

theorem serve_open_of_none (unknown : r.configs.find? name = none) (dir : FilePath) (t : FileTree) :
    r.serve (.openDatabase name dir t) = (.error (.unknownDriver name), r) := by
  simp only [serve, openDatabase, unknown, Except.map]

theorem tells_unknown_iff {dir : FilePath} {t : FileTree} :
    (∃ e, (r.serve (.openDatabase name dir t)).1 = .error e ∧ e.message = (Error.unknownDriver name).message) ↔
      r.configs.find? name = none := by
  cases found : r.configs.find? name with
  | none =>
    rw [serve_open_of_none found]
    exact iff_of_true ⟨_, rfl, rfl⟩ rfl
  | some c =>
    rw [serve_open_of_some found]
    refine iff_of_false (fun unknown => ?_) (by simp)
    obtain ⟨e, failed, told⟩ := unknown
    cases opened : ({ c with dataDir := dir } : Config).openDatabase t with
    | ok db =>
      rw [opened] at failed
      cases failed
    | error e' =>
      rw [opened] at failed
      cases failed
      exact (OpenFault.of_openDatabase opened).message_ne name told

theorem find?_serve (r : Registry) (call : RegistryCall) (name : String) :
    (r.serve call).2.configs.find? name = (r.configs.find? name).or (call.config? name) := by
  cases call with
  | register name' c =>
    cases found : r.configs.find? name' with
    | some c₀ =>
      rw [serve_register_of_some found]
      by_cases same : name' = name
      · rw [← same, found, Option.some_or]
      · rw [RegistryCall.config?, if_neg same, Option.or_none]
    | none =>
      rw [serve_register_of_none found, RegistryCall.config?]
      by_cases same : name' = name
      · subst same
        rw [SortedMap.find?_insert_self, found, if_pos rfl, Option.none_or]
      · rw [SortedMap.find?_insert_ne _ same, if_neg same, Option.or_none]
  | openDatabase | drivers => exact (Option.or_none).symm

theorem find?_foldl (r : Registry) (calls : List RegistryCall) (name : String) :
    (calls.foldl (fun r call => (r.serve call).2) r).configs.find? name =
      (r.configs.find? name).or (calls.findSome? (RegistryCall.config? name)) := by
  induction calls generalizing r with
  | nil => rw [List.foldl_nil, List.findSome?_nil, Option.or_none]
  | cons call calls ih =>
    rw [List.foldl_cons, ih, find?_serve, Option.or_assoc, List.findSome?_cons]
    cases call.config? name with
    | none => rw [Option.none_or]
    | some => rw [Option.some_or]

theorem find?_after (calls : List RegistryCall) (name : String) :
    (after calls).configs.find? name = calls.findSome? (RegistryCall.config? name) := by
  rw [after, find?_foldl]
  exact Option.none_or

end Serve

section After

open RegistryCall (FirstRegisters)

variable {past : List RegistryCall} {name : String} {c : Config}

theorem find?_after_eq_some_iff : (after past).configs.find? name = some c ↔ FirstRegisters past name c := by
  rw [find?_after, RegistryCall.findSome?_eq_some_iff]

theorem find?_after_eq_none_iff : (after past).configs.find? name = none ↔ ∀ c, .register name c ∉ past := by
  rw [find?_after, RegistryCall.findSome?_eq_none_iff]

theorem exists_find?_after (registered : .register name c ∈ past) :
    ∃ c₀, (after past).configs.find? name = some c₀ := by
  refine Option.ne_none_iff_exists'.mp fun none => ?_
  exact find?_after_eq_none_iff.mp none c registered

theorem mem_drivers_after : name ∈ (after past).drivers ↔ ∃ c, .register name c ∈ past := by
  rw [drivers, SortedMap.mem_keys_iff]
  constructor
  · rintro ⟨c, found⟩
    obtain ⟨before, later, split, -⟩ := find?_after_eq_some_iff.mp found
    exact ⟨c, by simp [split]⟩
  · rintro ⟨c, registered⟩
    exact exists_find?_after registered

end After

end Registry

/-- Whatever calls there were, failed ones among them: the names registered so far are listed, each once and in the order
of their bytes. The first configuration registered under a name stays and others are refused; a database is opened by it,
but in the directory asked for. That a driver is unknown is said of the names never registered, and of no others. -/
theorem first_registration_stays (past : List RegistryCall) :
    (∃ names, (Registry.after past).serve .drivers = (.ok (.listed names), .after past) ∧ Text.Ascending names ∧
      names.Nodup ∧ ∀ name, name ∈ names ↔ ∃ c, .register name c ∈ past) ∧
    (∀ name, (∀ c, .register name c ∉ past) →
      ∀ c, ((Registry.after past).serve (.register name c)).1 = .ok .registered) ∧
    (∀ name c, .register name c ∈ past →
      ∀ c', (Registry.after past).serve (.register name c') = (.error (.driverRegistered name), .after past)) ∧
    (∀ name c, RegistryCall.FirstRegisters past name c →
      ∀ dir t, (Registry.after past).serve (.openDatabase name dir t) =
        (({ c with dataDir := dir }.openDatabase t).map .opened, .after past)) ∧
    ∀ name dir t, ((Registry.after past).serve (.openDatabase name dir t)).2 = .after past ∧
      ((∃ e, ((Registry.after past).serve (.openDatabase name dir t)).1 = .error e ∧
        e.message = (Error.unknownDriver name).message) ↔ ∀ c, .register name c ∉ past) := by
  refine ⟨?_, fun name never c => ?_, fun name c registered c' => ?_, fun name c first dir t => ?_,
    fun name dir t => ⟨rfl, ?_⟩⟩
  · have ascending := Text.ascending_iff.mpr (Registry.after past).configs.pairwise_keys
    exact ⟨_, rfl, ascending, ascending.nodup, fun name => Registry.mem_drivers_after⟩
  · rw [Registry.serve_register_of_none (Registry.find?_after_eq_none_iff.mpr never)]
  · obtain ⟨c₀, found⟩ := Registry.exists_find?_after registered
    exact Registry.serve_register_of_some found c'
  · exact Registry.serve_open_of_some (Registry.find?_after_eq_some_iff.mpr first) dir t
  · rw [Registry.tells_unknown_iff, Registry.find?_after_eq_none_iff]

def rowsUpTo (n : UInt64) : Config :=
  { dataConfig with maxRowSize := n }

def contestedName : List RegistryCall :=
  [.openDatabase "file" ⟨"data"⟩ .empty, .register "other" (rowsUpTo 128), .register "file" (rowsUpTo 64),
    .openDatabase "file" ⟨"elsewhere"⟩ .empty, .register "file" (rowsUpTo 128)]

def otherTree : FileTree :=
  (FileTree.empty.insert ["files"] .directory).insert ["files", "schema"] (.file eventSchema.encode)

theorem first_registration_stays_contested :
    (∃ names, (Registry.after contestedName).serve .drivers = (.ok (.listed names), .after contestedName) ∧
      Text.Ascending names ∧ names.Nodup ∧ ∀ name, name ∈ names ↔ ∃ c, .register name c ∈ contestedName) ∧
    ((∀ c, .register "new" c ∉ contestedName) ∧
      ((Registry.after contestedName).serve (.register "new" (rowsUpTo 128))).1 = .ok .registered) ∧
    (.register "file" (rowsUpTo 64) ∈ contestedName ∧
      (Registry.after contestedName).serve (.register "file" (rowsUpTo 32)) =
        (.error (.driverRegistered "file"), .after contestedName)) ∧
    RegistryCall.FirstRegisters contestedName "file" (rowsUpTo 64) ∧
      (Registry.after contestedName).serve (.openDatabase "file" ⟨"files"⟩ otherTree) =
        (.ok (.opened ⟨(RowStore.ofSchema eventSchema).withLimit 64, ⟨"files"⟩⟩), .after contestedName) := by
  have never : ∀ c, .register "new" c ∉ contestedName := by simp [contestedName]
  have registered : .register "file" (rowsUpTo 64) ∈ contestedName := by simp [contestedName]
  have first : RegistryCall.FirstRegisters contestedName "file" (rowsUpTo 64) :=
    ⟨contestedName.take 2, contestedName.drop 3, rfl, by simp [contestedName]⟩
  obtain ⟨listed, new, second, opened, -⟩ := first_registration_stays contestedName
  have read : otherTree.read { rowsUpTo 64 with dataDir := ⟨"files"⟩ }.schemaPath = .ok eventSchema.encode := by
    decide +kernel
  have loaded : Database.load { rowsUpTo 64 with dataDir := ⟨"files"⟩ } otherTree = .ok eventSchema :=
    Database.load_of_read (by decide +kernel) (by decide) read
  refine ⟨listed, ⟨never, new "new" never _⟩, ⟨registered, second "file" _ registered _⟩, first, ?_⟩
  rw [opened "file" _ first, Config.openDatabase_of_load (by decide) loaded]
  rfl

end RowBase
