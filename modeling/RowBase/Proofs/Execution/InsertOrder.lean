import RowBase.Proofs.Execution.Failures
import RowBase.Proofs.Execution.InsertedRows
import RowBase.Proofs.Storage.UnitCalls

namespace RowBase

namespace Memory

theorem write_result_eq (m m' : Memory) (space key : String) (bs : Bytes) :
    (Storage.write m space key bs).1 = (Storage.write m' space key bs).1 := by
  simp only [Storage.write]
  split <;> rfl

end Memory

namespace RowStore

variable {s : RowStore} {c d : Call}

theorem createRow_result_eq (m m' : Memory) (identity : String) (row : Row) :
    (s.createRow m identity row).1 = (s.createRow m' identity row).1 := by
  by_cases big : s.limit < row.encode.length
  · simp only [createRow, if_pos big]
  · simp only [createRow, if_neg big]
    exact Memory.write_result_eq m m' row.table identity row.encode

theorem runInsert_result_eq (m m' : Memory) (fresh : Identifier) (i : Sql.Insert) :
    (s.runInsert m fresh i).result = (s.runInsert m' fresh i).result := by
  cases made : i.row s.schema fresh with
  | error e => simp only [runInsert, made]
  | ok found =>
    rcases found with ⟨identity, row⟩
    rw [runInsert_result made, runInsert_result made, createRow_result_eq m m']

theorem reply_eq (noSelect : ¬c.IsSelect) (m m' : Memory) : (s.call m c).1 = (s.call m' c).1 := by
  cases parsed : Sql.Statement.parse c.sql with
  | error e =>
    obtain ⟨e', run⟩ := call_of_parse_error (σ := Memory) (s := s) parsed
    rw [run, run]
  | ok statement =>
    rw [call_of_parse parsed, call_of_parse parsed]
    cases statement with
    | insert i => exact congrArg c.handle.reply (runInsert_result_eq m m' c.fresh i)
    | select q => exact absurd ⟨q, parsed⟩ noSelect
    | createTable t => rfl

theorem store_of_inserted (noSelect : ¬c.IsSelect) {m : Memory} {table identity : String}
    (inserted : c.inserted? (s.call m c).1 = some (table, identity)) :
    ∃ i row, Sql.Statement.parse c.sql = .ok (.insert i) ∧ i.row s.schema c.fresh = .ok (identity, row) ∧
      ∀ m' : Memory, (s.call m' c).2 = m'.insert table identity row.encode := by
  obtain ⟨i, identity', row, parsed, made, told, -⟩ | ⟨told, -⟩ := s.call_writes m c
  · rw [told, Option.some.injEq, Prod.mk.injEq] at inserted
    obtain ⟨rfl, rfl⟩ := inserted
    refine ⟨i, row, parsed, made, fun m' => ?_⟩
    obtain ⟨i', _, row', parsed', made', -, written⟩ | ⟨told', -⟩ := s.call_writes m' c
    · rw [parsed] at parsed'
      cases parsed'
      rw [made] at made'
      cases made'
      exact (Memory.write_eq_ok_iff.mp written).2.2
    · rw [reply_eq noSelect m' m, told] at told'
      simp at told'
  · simp [told] at inserted

theorem store_of_not_inserted (noSelect : ¬c.IsSelect) {m : Memory} (none : c.inserted? (s.call m c).1 = none)
    (m' : Memory) : (s.call m' c).2 = m' := by
  obtain ⟨i, _, row, -, -, told, -⟩ | ⟨-, same | ⟨space, key, bs, e, refused⟩⟩ := s.call_writes m' c
  · rw [reply_eq noSelect m' m, none] at told
    simp at told
  · exact same
  · exact Memory.eq_of_refused refused

/-- Two calls do not insert rows under the same identity of a table. -/
def Apart (s : RowStore) (m : Memory) (c d : Call) : Prop :=
  ∀ p ∈ c.inserted? (s.call m c).1, ∀ q ∈ d.inserted? (s.call m d).1, p ≠ q

instance (s : RowStore) (m : Memory) : Std.Symm (s.Apart m) where
  symm _ _ apart q second p first := (apart p first q second).symm

theorem store_comm (noSelect : ¬c.IsSelect) (noSelect' : ¬d.IsSelect) {m : Memory} (apart : s.Apart m c d) (m' : Memory) :
    (s.call (s.call m' c).2 d).2 = (s.call (s.call m' d).2 c).2 := by
  cases first : c.inserted? (s.call m c).1 with
  | none => rw [store_of_not_inserted noSelect first, store_of_not_inserted noSelect first]
  | some p =>
    cases second : d.inserted? (s.call m d).1 with
    | none => rw [store_of_not_inserted noSelect' second, store_of_not_inserted noSelect' second]
    | some q =>
      obtain ⟨i, row, -, -, store⟩ := store_of_inserted noSelect first
      obtain ⟨i', row', -, -, store'⟩ := store_of_inserted noSelect' second
      have other : ¬(p.1 = q.1 ∧ p.2 = q.2) := fun same => apart p first q second (Prod.ext same.1 same.2)
      rw [store, store, store', store', Memory.insert_comm m' other]

theorem calls_store {σ : Type} [Storage σ] (store : σ) (cs : List Call) :
    (s.calls store cs).2 = cs.foldl (fun store c => (s.call store c).2) store := by
  induction cs generalizing store with
  | nil => rfl
  | cons c cs ih => exact ih _

theorem calls_replies {cs : List Call} (noSelect : ∀ c ∈ cs, ¬c.IsSelect) (m m' : Memory) :
    (s.calls m' cs).1 = cs.map fun c => (s.call m c).1 := by
  induction cs generalizing m' with
  | nil => rfl
  | cons c cs ih =>
    have others := ih (fun d member => noSelect d (by simp [member])) (s.call m' c).2
    change (s.call m' c).1 :: (s.calls (s.call m' c).2 cs).1 = _
    rw [others, reply_eq (noSelect c (by simp)) m' m, List.map_cons]

theorem calls_perm {cs cs' : List Call} (noSelect : ∀ c ∈ cs, ¬c.IsSelect) {m : Memory}
    (distinct : (cs.filterMap fun c => c.inserted? (s.call m c).1).Nodup) (perm : cs.Perm cs') :
    (s.calls m cs).2 = (s.calls m cs').2 := by
  rw [calls_store, calls_store]
  have apart : cs.Pairwise (s.Apart m) := List.pairwise_filterMap.mp distinct
  refine perm.foldl_eq' (fun c member d member' m' => ?_) m
  by_cases same : c = d
  · rw [same]
  · exact store_comm (noSelect c member) (noSelect d member') (apart.forall member member' same) m'

theorem find?_of_calls {cs : List Call} (noSelect : ∀ c ∈ cs, ¬c.IsSelect) {m : Memory} {table identity : String}
    (apart : ∀ c ∈ cs, c.inserted? (s.call m c).1 ≠ some (table, identity)) (m' : Memory) :
    (s.calls m' cs).2.find? table identity = m'.find? table identity := by
  induction cs generalizing m' with
  | nil => rfl
  | cons c cs ih =>
    have others := ih (fun d member => noSelect d (by simp [member])) (fun d member => apart d (by simp [member]))
      (s.call m' c).2
    refine others.trans ?_
    cases inserted : c.inserted? (s.call m c).1 with
    | none => rw [store_of_not_inserted (noSelect c (by simp)) inserted]
    | some p =>
      obtain ⟨i, row, -, -, store⟩ := store_of_inserted (noSelect c (by simp)) inserted
      have other : ¬(table = p.1 ∧ identity = p.2) := by
        rintro ⟨rfl, rfl⟩
        exact apart c (by simp) inserted
      rw [store, Memory.find?_insert, Units.set_of_ne _ other]

end RowStore

open RowStore

/-- Statements that insert rows give in any order what each of them gives alone. If no two of them insert under the same
identity of a table, the storage after them is the same in any order, and so is all that is read from it. In any case
the unit under an identity is that of the last statement that has inserted under it. -/
theorem inserts_commute (s : RowStore) (m : Memory) {cs : List Call} (noSelect : ∀ c ∈ cs, ¬c.IsSelect) :
    (∀ cs', cs'.Perm cs → (s.calls m cs').1 = cs'.map fun c => (s.call m c).1) ∧
    ((cs.filterMap fun c => c.inserted? (s.call m c).1).Nodup → ∀ cs', cs'.Perm cs →
      (s.calls m cs').2 = (s.calls m cs).2 ∧
      (∀ c : Call, s.call (s.calls m cs').2 c = s.call (s.calls m cs).2 c) ∧
      (∀ table columns filters,
        scanTable (s.calls m cs').2 table columns filters = scanTable (s.calls m cs).2 table columns filters) ∧
      ∀ c : UnitCall, Storage.serve (s.calls m cs').2 c = Storage.serve (s.calls m cs).2 c) ∧
    ∀ before c after table identity, cs = before ++ c :: after →
      c.inserted? (s.call m c).1 = some (table, identity) →
      (∀ d ∈ after, d.inserted? (s.call m d).1 ≠ some (table, identity)) →
        ∃ i row, Sql.Statement.parse c.sql = .ok (.insert i) ∧ i.row s.schema c.fresh = .ok (identity, row) ∧
          (s.calls m cs).2.find? table identity = some row.encode := by
  refine ⟨fun cs' perm => ?_, fun distinct cs' perm => ?_, fun before c after table identity split inserted later => ?_⟩
  · exact calls_replies (fun c member => noSelect c (perm.subset member)) m m
  · have same := calls_perm noSelect distinct perm.symm
    rw [same]
    exact ⟨rfl, fun _ => rfl, fun _ _ _ => rfl, fun _ => rfl⟩
  · subst split
    obtain ⟨i, row, parsed, made, store⟩ := store_of_inserted (noSelect c (by simp)) inserted
    refine ⟨i, row, parsed, made, ?_⟩
    rw [calls_store, List.foldl_append, List.foldl_cons, store, ← calls_store,
      find?_of_calls (fun d member => noSelect d (by simp [member])) later, Memory.find?_insert, Units.set_self]

def ledger : RowStore :=
  .ofSchema { Database.blank "ledger" with
    tables := [⟨"t", [⟨"k", .string⟩, ⟨"n", .int⟩], [⟨"key", "k", true, true, true, none, none⟩]⟩] }

def entry (values : String) : Call :=
  ⟨.session, "INSERT INTO t VALUES (" ++ values ++ ");", .zero⟩

theorem inserted?_entry {values : String} {literals : List String}
    (parsed : Sql.Statement.parse (entry values).sql = .ok (.insert ⟨"t", .all, literals⟩)) (m : Memory) :
    (entry values).inserted? (ledger.call m (entry values)).1 =
      (Reply.result (ledger.runInsert m .zero ⟨"t", .all, literals⟩).result).identity?.map fun identity => ("t", identity) := by
  rw [Call.inserted?, parsed, call_of_parse parsed]
  rfl

theorem inserts_commute_ledger :
    (∀ c ∈ [entry "'a', 1", entry "'b', x", entry "'b', 2"], ¬c.IsSelect) ∧
    ([entry "'a', 1", entry "'b', x", entry "'b', 2"].filterMap fun c =>
      c.inserted? (ledger.call Memory.empty c).1) = [("t", "a"), ("t", "b")] ∧
    (ledger.calls Memory.empty [entry "'b', 2", entry "'a', 1", entry "'b', x"]).2 =
      (ledger.calls Memory.empty [entry "'a', 1", entry "'b', x", entry "'b', 2"]).2 ∧
    ∃ i row, Sql.Statement.parse (entry "'a', 3").sql = .ok (.insert i) ∧
      i.row ledger.schema .zero = .ok ("a", row) ∧
      (ledger.calls Memory.empty [entry "'a', 1", entry "'a', 3", entry "'b', x"]).2.find? "t" "a" =
        some row.encode := by
  have first : Sql.Statement.parse (entry "'a', 1").sql = .ok (.insert ⟨"t", .all, ["a", "1"]⟩) := by cbv
  have second : Sql.Statement.parse (entry "'b', 2").sql = .ok (.insert ⟨"t", .all, ["b", "2"]⟩) := by cbv
  have wrong : Sql.Statement.parse (entry "'b', x").sql = .ok (.insert ⟨"t", .all, ["b", "x"]⟩) := by cbv
  have other : Sql.Statement.parse (entry "'a', 3").sql = .ok (.insert ⟨"t", .all, ["a", "3"]⟩) := by cbv
  have firstInserts := (inserted?_entry first .empty).trans (by decide : _ = some ("t", "a"))
  have secondInserts := (inserted?_entry second .empty).trans (by decide : _ = some ("t", "b"))
  have wrongInserts := (inserted?_entry wrong .empty).trans (by decide : _ = none)
  have otherInserts := (inserted?_entry other .empty).trans (by decide : _ = some ("t", "a"))
  have noSelect {c : Call} {i : Sql.Insert} (parsed : Sql.Statement.parse c.sql = .ok (.insert i)) : ¬c.IsSelect := by
    intro select
    obtain ⟨q, select⟩ := select
    rw [parsed] at select
    cases select
  have insertions : ∀ c ∈ [entry "'a', 1", entry "'b', x", entry "'b', 2"], ¬c.IsSelect := by
    simpa using ⟨noSelect first, noSelect wrong, noSelect second⟩
  have insertions' : ∀ c ∈ [entry "'a', 1", entry "'a', 3", entry "'b', x"], ¬c.IsSelect := by
    simpa using ⟨noSelect first, noSelect other, noSelect wrong⟩
  have inserted : ([entry "'a', 1", entry "'b', x", entry "'b', 2"].filterMap fun c =>
      c.inserted? (ledger.call Memory.empty c).1) = [("t", "a"), ("t", "b")] := by
    simp [firstInserts, secondInserts, wrongInserts]
  have distinct : ([entry "'a', 1", entry "'b', x", entry "'b', 2"].filterMap fun c =>
      c.inserted? (ledger.call Memory.empty c).1).Nodup := by
    rw [inserted]
    decide
  have moved : [entry "'b', 2", entry "'a', 1", entry "'b', x"].Perm
      [entry "'a', 1", entry "'b', x", entry "'b', 2"] :=
    (List.perm_append_singleton _ [entry "'a', 1", entry "'b', x"]).symm
  have commute := ((inserts_commute ledger .empty insertions).2.1 distinct _ moved).1
  have last := (inserts_commute ledger .empty insertions').2.2 [entry "'a', 1"] _ [entry "'b', x"] "t" "a" rfl
    otherInserts (by simp [wrongInserts])
  exact ⟨insertions, inserted, commute, last⟩

end RowBase
