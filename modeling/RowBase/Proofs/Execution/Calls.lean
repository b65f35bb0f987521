import RowBase.Proofs.Sql.Classification
import RowBase.Proofs.Storage.Units

namespace RowBase

/-- A session gives results as they are, a connection gives them as cursors. -/
inductive Handle
  | session
  | connection

structure Call where
  handle : Handle
  sql : String
  fresh : Identifier

inductive Reply
  | result (r : Except Error ResultSet)
  | cursor (r : Except Error Cursor)

def Handle.reply : Handle → Except Error ResultSet → Reply
  | session, r => .result r
  | connection, r => .cursor (r.map .ofResult)

namespace RowStore

variable {σ : Type} [Storage σ]

def call (s : RowStore) (store : σ) (c : Call) : Reply × σ :=
  match c.handle with
  | .session =>
    let o := s.execute store c.fresh c.sql
    (.result o.result, o.store)
  | .connection =>
    let o := s.query store c.fresh c.sql
    (.cursor o.result, o.store)

def calls (s : RowStore) (store : σ) : List Call → List Reply × σ
  | [] => ([], store)
  | c :: cs =>
    let (reply, store') := s.call store c
    let (replies, last) := s.calls store' cs
    (reply :: replies, last)

variable {s : RowStore}

theorem call_of_parse {c : Call} {statement : Sql.Statement} (parsed : Sql.Statement.parse c.sql = .ok statement)
    (store : σ) :
    s.call store c =
      (c.handle.reply (s.runStatement store c.fresh statement).result,
        (s.runStatement store c.fresh statement).store) := by
  have executed : s.execute store c.fresh c.sql = s.runStatement store c.fresh statement := by
    rw [execute, parsed]
  rcases c with ⟨_ | _, sql, fresh⟩
  · rw [call, executed]
    rfl
  · rw [call, query_of_parse parsed, executed]
    rfl

theorem call_of_parse_error {c : Call} {e : Error} (failed : Sql.Statement.parse c.sql = .error e) :
    ∃ e', ∀ store : σ, s.call store c = (c.handle.reply (.error e'), store) := by
  rcases c with ⟨_ | _, sql, fresh⟩
  · refine ⟨e, fun store => ?_⟩
    rw [call, execute, failed]
    rfl
  · obtain ⟨e', run⟩ := query_of_parse_error (σ := σ) (s := s) failed fresh
    refine ⟨e', fun store => ?_⟩
    rw [call, run]
    rfl

/-- All that a call can do: its result, and the storage after it. -/
inductive Effect (s : RowStore) (store : σ) (c : Call) : Except Error ResultSet → σ → Prop
  | inserted {i : Sql.Insert} {identity : String} {row : Row} {store' : σ}
      (parsed : Sql.Statement.parse c.sql = .ok (.insert i)) (made : i.row s.schema c.fresh = .ok (identity, row))
      (fits : row.encode.length ≤ s.limit)
      (written : Storage.write store row.table identity row.encode = (.ok (), store')) :
      Effect s store c (.ok (.inserted identity)) store'
  | unwritten {i : Sql.Insert} {identity : String} {row : Row} {e : Error} {store' : σ}
      (parsed : Sql.Statement.parse c.sql = .ok (.insert i)) (made : i.row s.schema c.fresh = .ok (identity, row))
      (fits : row.encode.length ≤ s.limit)
      (refused : Storage.write store row.table identity row.encode = (.error e, store')) :
      Effect s store c (.error e) store'
  | tooBig {i : Sql.Insert} {identity : String} {row : Row} {e : Error}
      (parsed : Sql.Statement.parse c.sql = .ok (.insert i)) (made : i.row s.schema c.fresh = .ok (identity, row))
      (big : s.limit < row.encode.length) : Effect s store c (.error e) store
  | unmade {i : Sql.Insert} {e : Error} (parsed : Sql.Statement.parse c.sql = .ok (.insert i))
      (refused : i.row s.schema c.fresh = .error e) : Effect s store c (.error e) store
  | selected {q : Sql.Select} {table : String} {columns : List String} {rows : List Row}
      (parsed : Sql.Statement.parse c.sql = .ok (.select q)) (target : q.target s.schema = .ok (table, columns))
      (scanned : (scanTable store table columns []).1 = .ok rows) :
      Effect s store c (.ok (.selected columns rows)) store
  | unlisted {q : Sql.Select} {table : String} {columns : List String} {e : Error}
      (parsed : Sql.Statement.parse c.sql = .ok (.select q)) (target : q.target s.schema = .ok (table, columns))
      (refused : (scanTable store table columns []).1 = .error e) : Effect s store c (.error e) store
  | untargeted {q : Sql.Select} {e : Error} (parsed : Sql.Statement.parse c.sql = .ok (.select q))
      (refused : q.target s.schema = .error e) : Effect s store c (.error e) store
  | other {e : Error} (noInsert : ∀ i, Sql.Statement.parse c.sql ≠ .ok (.insert i))
      (noSelect : ∀ q, Sql.Statement.parse c.sql ≠ .ok (.select q)) : Effect s store c (.error e) store

theorem runInsert_of_written {store store' : σ} {i : Sql.Insert} {fresh : Identifier} {identity : String} {row : Row}
    (made : i.row s.schema fresh = .ok (identity, row)) (fits : row.encode.length ≤ s.limit)
    (written : Storage.write store row.table identity row.encode = (.ok (), store')) :
    s.runInsert store fresh i = ⟨.ok (.inserted identity), store', []⟩ := by
  have short : ¬s.limit < row.encode.length := by omega
  simp only [runInsert, made, createRow, if_neg short, written]

theorem call_of_row {c : Call} {i : Sql.Insert} {identity : String} {row : Row}
    (parsed : Sql.Statement.parse c.sql = .ok (.insert i)) (made : i.row s.schema c.fresh = .ok (identity, row))
    (fits : row.encode.length ≤ s.limit) (space : isUnitName row.table = true) (key : isUnitName identity = true)
    (m : Memory) :
    s.call m c = (c.handle.reply (.ok (.inserted identity)), m.insert row.table identity row.encode) := by
  have written : Storage.write m row.table identity row.encode = (.ok (), m.insert row.table identity row.encode) :=
    Memory.write_eq_ok_iff.mpr ⟨space, key, rfl⟩
  rw [call_of_parse parsed, runStatement, runInsert_of_written made fits written]

theorem runInsert_result {fresh : Identifier} {i : Sql.Insert} {identity : String} {row : Row}
    (made : i.row s.schema fresh = .ok (identity, row)) (store : σ) :
    (s.runInsert store fresh i).result = (s.createRow store identity row).1.map fun () => .inserted identity := by
  rw [runInsert, made]
  rcases written : s.createRow store identity row with ⟨_ | _, store'⟩
  · simp only [written]
    rfl
  · simp only [written]
    rfl

theorem effect_runInsert {store : σ} {c : Call} {i : Sql.Insert}
    (parsed : Sql.Statement.parse c.sql = .ok (.insert i)) :
    Effect s store c (s.runInsert store c.fresh i).result (s.runInsert store c.fresh i).store := by
  rw [runInsert]
  cases made : i.row s.schema c.fresh with
  | error e => exact .unmade parsed made
  | ok written =>
    rcases written with ⟨identity, row⟩
    by_cases big : s.limit < row.encode.length
    · simp only [createRow, if_pos big]
      exact .tooBig parsed made big
    · rcases wrote : Storage.write store row.table identity row.encode with ⟨_ | _, store'⟩
      · simp only [createRow, if_neg big, wrote]
        exact .unwritten parsed made (by omega) wrote
      · simp only [createRow, if_neg big, wrote]
        exact .inserted parsed made (by omega) wrote

theorem effect_runSelect {store : σ} {c : Call} {q : Sql.Select}
    (parsed : Sql.Statement.parse c.sql = .ok (.select q)) :
    Effect s store c (s.runSelect store q).result (s.runSelect store q).store := by
  rw [runSelect]
  cases target : q.target s.schema with
  | error e => exact .untargeted parsed target
  | ok found =>
    rcases found with ⟨table, columns⟩
    cases scanned : (scanTable store table columns []).1 with
    | error e =>
      simp only [scanned]
      exact .unlisted parsed target scanned
    | ok rows =>
      simp only [scanned]
      exact .selected parsed target scanned

theorem call_effect (s : RowStore) (store : σ) (c : Call) :
    ∃ r, (s.call store c).1 = c.handle.reply r ∧ Effect s store c r (s.call store c).2 := by
  cases parsed : Sql.Statement.parse c.sql with
  | error e =>
    obtain ⟨e', run⟩ := call_of_parse_error (σ := σ) (s := s) parsed
    rw [run]
    exact ⟨_, rfl, .other (by simp [parsed]) (by simp [parsed])⟩
  | ok statement =>
    rw [call_of_parse parsed]
    cases statement with
    | insert i => exact ⟨_, rfl, effect_runInsert parsed⟩
    | select q => exact ⟨_, rfl, effect_runSelect parsed⟩
    | createTable t => exact ⟨_, rfl, .other (by simp [parsed]) (by simp [parsed])⟩

section Invariant

variable [LawfulStorage σ] {P : (space key : String) → Bytes → Prop}

theorem units_of_call {store : σ} {c : Call}
    (made : ∀ i identity row, Sql.Statement.parse c.sql = .ok (.insert i) →
      i.row s.schema c.fresh = .ok (identity, row) → row.encode.length ≤ s.limit → P row.table identity row.encode)
    (before : ∀ space key bs, LawfulStorage.units store space key = some bs → P space key bs) :
    ∀ space key bs, LawfulStorage.units (s.call store c).2 space key = some bs → P space key bs := by
  obtain ⟨r, -, effect⟩ := s.call_effect store c
  generalize (s.call store c).2 = store' at effect ⊢
  cases effect with
  | inserted parsed row fits written =>
    intro space key bs found
    rw [LawfulStorage.units_of_write written] at found
    rcases Units.set_eq_some found with ⟨rfl, rfl, rfl⟩ | found
    · exact made _ _ _ parsed row fits
    · exact before space key bs found
  | unwritten parsed row fits refused =>
    rw [LawfulStorage.units_of_refused refused]
    exact before
  | tooBig | unmade | selected | unlisted | untargeted | other => exact before

theorem units_of_calls (made : ∀ (c : Call) i identity row, Sql.Statement.parse c.sql = .ok (.insert i) →
      i.row s.schema c.fresh = .ok (identity, row) → row.encode.length ≤ s.limit → P row.table identity row.encode)
    {store : σ} (before : ∀ space key bs, LawfulStorage.units store space key = some bs → P space key bs)
    (cs : List Call) :
    ∀ space key bs, LawfulStorage.units (s.calls store cs).2 space key = some bs → P space key bs := by
  induction cs generalizing store with
  | nil => exact before
  | cons c cs ih => exact ih (units_of_call (made c) before)

end Invariant

end RowStore

end RowBase
