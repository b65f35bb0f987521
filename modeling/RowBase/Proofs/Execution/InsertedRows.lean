import RowBase.Proofs.Execution.Calls
import RowBase.Proofs.Execution.Insertion

namespace RowBase

def Reply.identity? : Reply → Option String
  | .result (.ok (.inserted identity)) => some identity
  | .cursor (.ok c) => c.lastInsertId
  | _ => none

theorem Reply.identity?_inserted (h : Handle) (identity : String) :
    (h.reply (.ok (.inserted identity))).identity? = some identity := by
  cases h <;> rfl

theorem Reply.identity?_error (h : Handle) (e : Error) : (h.reply (.error e)).identity? = none := by
  cases h <;> rfl

theorem Sql.Insert.table_of_row {db : Database} {i : Sql.Insert} {fresh : Identifier} {identity : String} {row : Row}
    (made : i.row db fresh = .ok (identity, row)) : row.table = i.table := by
  obtain ⟨t, _, _, found, -, -, rfl⟩ := Sql.Insert.row_eq_ok_iff.mp made
  exact Database.name_of_table? found

namespace Call

def IsSelect (c : Call) : Prop :=
  ∃ q, Sql.Statement.parse c.sql = .ok (.select q)

/-- The table and the identity of the row that a call has inserted, if it has inserted one. -/
def inserted? (c : Call) (r : Reply) : Option (String × String) :=
  match Sql.Statement.parse c.sql with
  | .ok (.insert i) => r.identity?.map fun identity => (i.table, identity)
  | _ => none

variable {c : Call} {db : Database} {i : Sql.Insert} {identity : String} {row : Row}

theorem inserted?_of_row (parsed : Sql.Statement.parse c.sql = .ok (.insert i))
    (made : i.row db c.fresh = .ok (identity, row)) (h : Handle) :
    c.inserted? (h.reply (.ok (.inserted identity))) = some (row.table, identity) := by
  rw [inserted?, parsed, Sql.Insert.table_of_row made]
  simp [Reply.identity?_inserted]

theorem inserted?_error (h : Handle) (e : Error) : c.inserted? (h.reply (.error e)) = none := by
  rw [inserted?]
  split
  · rw [Reply.identity?_error]
    rfl
  · rfl

end Call

namespace RowStore

variable {σ : Type} [Storage σ]

theorem call_writes (s : RowStore) (store : σ) (c : Call) :
    (∃ i identity row, Sql.Statement.parse c.sql = .ok (.insert i) ∧ i.row s.schema c.fresh = .ok (identity, row) ∧
      c.inserted? (s.call store c).1 = some (row.table, identity) ∧
      Storage.write store row.table identity row.encode = (.ok (), (s.call store c).2)) ∨
    c.inserted? (s.call store c).1 = none ∧ ((s.call store c).2 = store ∨
      ∃ space key bs e, Storage.write store space key bs = (.error e, (s.call store c).2)) := by
  obtain ⟨r, reply, effect⟩ := s.call_effect store c
  rw [reply]
  generalize (s.call store c).2 = store' at effect ⊢
  cases effect with
  | inserted parsed made _ written =>
    exact .inl ⟨_, _, _, parsed, made, Call.inserted?_of_row parsed made _, written⟩
  | unwritten _ _ _ refused => exact .inr ⟨Call.inserted?_error _ _, .inr ⟨_, _, _, _, refused⟩⟩
  | tooBig | unmade | unlisted | untargeted | other => exact .inr ⟨Call.inserted?_error _ _, .inl rfl⟩
  | selected parsed => exact .inr ⟨by rw [Call.inserted?, parsed], .inl rfl⟩

end RowStore

end RowBase
