import RowBase.Proofs.Execution.Calls
import RowBase.Proofs.Storage.DiskUnits

namespace RowBase

inductive Request
  | statement (c : Call)
  | update
  | delete
  | begin
  | commit
  | rollback
  | prepare (sql : String)
  | createRow (identity : String) (row : Row)
  | scan (table : String) (columns : List String) (filters : List Filter)
  | write (space key : String) (bs : Bytes)
  | units (space : String)

def Request.IsReadOnly : Request → Prop
  | statement c => ∀ i, Sql.Statement.parse c.sql ≠ .ok (.insert i)
  | createRow _ _ | write _ _ _ => False
  | _ => True

inductive Answer
  | done
  | result (r : ResultSet)
  | cursor (c : Cursor)
  | rows (rows : List Row)
  | units (units : List (String × Except Error Bytes))
  deriving DecidableEq

def Reply.answer : Reply → Except Error Answer
  | result r => r.map .result
  | cursor c => c.map .cursor

structure Engine (σ : Type) where
  rows : RowStore
  store : σ

namespace Engine

variable {σ : Type} [Storage σ]

def done (r : Except Error Unit) : Except Error Answer :=
  r.map fun () => .done

def serve (e : Engine σ) : Request → Except Error Answer × Engine σ
  | .statement c => ((e.rows.call e.store c).1.answer, { e with store := (e.rows.call e.store c).2 })
  | .update => ((e.rows.runUpdate e.store).result.map .result, { e with store := (e.rows.runUpdate e.store).store })
  | .delete => ((e.rows.runDelete e.store).result.map .result, { e with store := (e.rows.runDelete e.store).store })
  | .begin => (done e.rows.begin, e)
  | .commit => (done e.rows.commit, e)
  | .rollback => (done e.rows.rollback, e)
  | .prepare sql => (done (e.rows.prepare sql), e)
  | .createRow identity row =>
    (done (e.rows.createRow e.store identity row).1, { e with store := (e.rows.createRow e.store identity row).2 })
  | .scan table columns filters => ((scanTable e.store table columns filters).1.map .rows, e)
  | .write space key bs =>
    (done (Storage.write e.store space key bs).1, { e with store := (Storage.write e.store space key bs).2 })
  | .units space => ((Storage.units e.store space).map .units, e)

/-- All that a request can do to an engine: nothing, or one write, without which it fails. -/
inductive Change (e : Engine σ) (r : Request) : Except Error Answer → Engine σ → Prop
  | none (answer : Except Error Answer) : Change e r answer e
  | written {space key : String} {bs : Bytes} {store : σ} {answer : Answer} (writes : ¬r.IsReadOnly)
      (wrote : Storage.write e.store space key bs = (.ok (), store)) : Change e r (.ok answer) { e with store }
  | refused {space key : String} {bs : Bytes} {store : σ} {f : Error} {answer : Except Error Answer}
      (writes : ¬r.IsReadOnly) (refused : Storage.write e.store space key bs = (.error f, store)) :
      Change e r answer { e with store }

theorem change_of_write {e : Engine σ} {r : Request} (writes : ¬r.IsReadOnly) (space key : String) (bs : Bytes) :
    Change e r (done (Storage.write e.store space key bs).1)
      { e with store := (Storage.write e.store space key bs).2 } := by
  rcases wrote : Storage.write e.store space key bs with ⟨_ | _, store⟩
  · exact .refused writes wrote
  · exact .written writes wrote

theorem change_of_statement (e : Engine σ) (c : Call) :
    Change e (.statement c) (e.rows.call e.store c).1.answer { e with store := (e.rows.call e.store c).2 } := by
  obtain ⟨result, reply, effect⟩ := e.rows.call_effect e.store c
  rw [reply]
  generalize (e.rows.call e.store c).2 = store at effect ⊢
  -- Whatever reaches the storage comes from an INSERT statement that was parsed.
  have writes {i : Sql.Insert} (parsed : Sql.Statement.parse c.sql = .ok (.insert i)) :
      ¬(Request.statement c).IsReadOnly := fun readOnly => readOnly i parsed
  cases effect with
  | inserted parsed _ _ written =>
    cases handle : c.handle with
    | session => exact .written (writes parsed) written
    | connection => exact .written (writes parsed) written
  | unwritten parsed _ _ refused => exact .refused (writes parsed) refused
  | tooBig | unmade | selected | unlisted | untargeted | other => exact .none _

theorem change_serve (e : Engine σ) (r : Request) : Change e r (e.serve r).1 (e.serve r).2 := by
  cases r with
  | statement c => exact e.change_of_statement c
  | update | delete | begin | commit | rollback | prepare | scan | units => exact .none _
  | createRow identity row =>
    simp only [serve, RowStore.createRow]
    split
    · exact .none _
    · exact change_of_write id _ _ _
  | write space key bs => exact change_of_write id space key bs

theorem eq_of_readOnly (e : Engine σ) {r : Request} (readOnly : r.IsReadOnly) : (e.serve r).2 = e := by
  have change := e.change_serve r
  generalize (e.serve r).1 = answer, (e.serve r).2 = e' at change ⊢
  cases change with
  | none => rfl
  | written writes => exact absurd readOnly writes
  | refused writes => exact absurd readOnly writes

theorem refused_of_failure {e : Engine σ} {r : Request} {f : Error} (failed : (e.serve r).1 = .error f) :
    (e.serve r).2 = e ∨ ∃ space key bs g store, Storage.write e.store space key bs = (.error g, store) ∧
      (e.serve r).2 = { e with store } := by
  have change := e.change_serve r
  rw [failed] at change
  generalize (e.serve r).2 = e' at change ⊢
  cases change with
  | none => exact .inl rfl
  | refused _ refused => exact .inr ⟨_, _, _, _, _, refused, rfl⟩

/-- The schema, every file and so every unit are the same. Directories on the way to a namespace may be new. -/
structure KeepsUnits (e e' : Engine Disk) : Prop where
  rows : e'.rows = e.rows
  root : e'.store.root = e.store.root
  units : e'.store.units = e.store.units
  files : e'.store.tree.file? = e.store.tree.file?
  directories : ∃ space, e.store.tree.GrownAlong (e.store.root.names ++ [space]) e'.store.tree

theorem keepsUnits_refl (e : Engine Disk) : KeepsUnits e e where
  rows := rfl
  root := rfl
  units := rfl
  files := rfl
  directories := ⟨"", .refl _ _⟩

/-- Whatever fails, in memory everything is as before, and on disk every unit is. -/
theorem failure_keeps_units :
    (∀ (e : Engine Memory) (r : Request) (f : Error), (e.serve r).1 = .error f → (e.serve r).2 = e) ∧
    (∀ (e : Engine Disk) (r : Request) (f : Error), (e.serve r).1 = .error f → KeepsUnits e (e.serve r).2) ∧
    ∀ r : Request, r.IsReadOnly →
      (∀ e : Engine Memory, (e.serve r).2 = e) ∧ ∀ e : Engine Disk, (e.serve r).2 = e := by
  refine ⟨fun e r f failed => ?_, fun e r f failed => ?_, fun r readOnly => ?_⟩
  · rcases refused_of_failure failed with same | ⟨space, key, bs, g, store, refused, changed⟩
    · exact same
    · rw [changed, Memory.eq_of_refused refused]
  · rcases refused_of_failure failed with same | ⟨space, key, bs, g, store, refused, changed⟩
    · rw [same]
      exact keepsUnits_refl e
    · obtain ⟨root, grown⟩ := Disk.grown_of_refused refused
      rw [changed]
      exact ⟨rfl, root, Disk.units_of_refused refused, grown.file?_eq, space, grown⟩
  · exact ⟨fun e => e.eq_of_readOnly readOnly, fun e => e.eq_of_readOnly readOnly⟩

/-- A directory lies where the unit `7` would be written, and a unit that is no row beside it. -/
def occupied : Engine Disk where
  rows := .ofSchema (.blank "test")
  store := ⟨(((FileTree.empty.insert ["data"] .directory).insert ["data", "t"] .directory).insert ["data", "t", "7"]
    .directory).insert ["data", "t", "8"] (.file [1]), ⟨"data"⟩⟩

def storeSeven : Request :=
  .createRow "7" ⟨"t", [.ofValue "n" .int (.int 7)], false⟩

def cluttered : Engine Memory :=
  ⟨.ofSchema (.blank "test"), Memory.empty.insert "t" "8" [1]⟩

def selectAll : Request :=
  .statement ⟨.connection, "SELECT * FROM t;", .zero⟩

theorem failure_keeps_units_occupied :
    ((occupied.serve storeSeven).1 = .error (.writeFailed "data/t/7" .isDirectory) ∧
      KeepsUnits occupied (occupied.serve storeSeven).2) ∧
    ((cluttered.serve (.write "t" "a/b" [2])).1 = .error (.invalidKey "a/b") ∧
      (cluttered.serve (.write "t" "a/b" [2])).2 = cluttered) ∧
    selectAll.IsReadOnly ∧ (cluttered.serve selectAll).2 = cluttered ∧ (occupied.serve selectAll).2 = occupied := by
  have occupies : (occupied.serve storeSeven).1 = .error (.writeFailed "data/t/7" .isDirectory) := by decide
  have clutters : (cluttered.serve (.write "t" "a/b" [2])).1 = .error (.invalidKey "a/b") := by decide
  have parsed : Sql.Statement.parse "SELECT * FROM t;" = .ok (.select ⟨"t", .all⟩) := by cbv
  have readOnly : selectAll.IsReadOnly := by
    intro i inserts
    rw [parsed] at inserts
    simp at inserts
  have reads := failure_keeps_units.2.2 selectAll readOnly
  exact ⟨⟨occupies, failure_keeps_units.2.1 _ _ _ occupies⟩, ⟨clutters, failure_keeps_units.1 _ _ _ clutters⟩,
    readOnly, reads.1 cluttered, reads.2 occupied⟩

end Engine

end RowBase
