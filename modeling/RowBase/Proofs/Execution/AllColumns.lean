import RowBase.Proofs.Execution.Dispatch
import RowBase.Proofs.Execution.Insertion
import RowBase.Proofs.Schema.TableValidity

namespace RowBase

namespace Sql

namespace Grammar

structure IsName (n : String) : Prop where
  word : IsWord n.toList
  free : ∀ k, IsKeyword k n.toList → k.isReserved = false

/-- What is read where such a word stands: a keyword is a name in small letters. -/
def readName (n : String) : String :=
  match Keyword.ofName? n with
  | some k => k.asName
  | none => n

theorem isName_of_word {n : String} (word : IsWord n.toList)
    (free : ∀ k ∈ Keyword.all, IsKeyword k n.toList → k.isReserved = false) : IsName n :=
  ⟨word, fun k => free k k.mem_all⟩

theorem IsName.spells {n : String} (name : IsName n) {rest : List Char} (stops : Stops IsWordChar rest) :
    Spells EndsPlain (.name (readName n)) n.toList rest := by
  have known {k : Keyword} := ofName?_eq_some_iff (k := k) name.word
  have unknown := ofName?_eq_none_iff name.word
  rw [String.ofList_toList] at unknown
  simp only [String.ofList_toList] at known
  cases found : Keyword.ofName? n with
  | some k =>
    have spelled := known.mp found
    rw [readName, found]
    simp only [asName_eq spelled]
    exact .keywordName (name.free k spelled) spelled stops
  | none =>
    have plain : Spells EndsPlain _ _ _ := .plainName name.word (unknown.mp found) stops
    rw [readName, found]
    rwa [String.ofList_toList] at plain

def namesText (names : List String) : List Char :=
  [',', ' '].intercalate (names.map String.toList)

theorem opens_names {names : List String} (filled : names ≠ []) (each : ∀ n ∈ names, IsName n) {gap : List Char}
    (blank : IsGap gap) (rest : List Char) :
    Opens EndsPlain (itemList (names.map fun n => [.name (readName n)])) (gap ++ namesText names ++ ')' :: rest) rest := by
  have close : IsGap [] := by simp [IsGap]
  induction names generalizing gap with
  | nil => exact absurd rfl filled
  | cons n names ih =>
    have name := each n (by simp)
    cases names with
    | nil =>
      have stops : Stops IsWordChar (')' :: rest) := by rintro c ⟨⟩; decide
      simp only [namesText, List.map_cons, List.map_nil, List.intercalate_singleton]
      exact .cons blank (name.spells stops) (@Opens.cons _ _ _ [] [')'] rest _ close .symbol .nil)
    | cons m names =>
      -- The comma comes right behind the name, and one blank behind the comma.
      have others := @ih (by simp) (fun k member => each k (by simp [member])) [' '] (by decide)
      have stops (cs : List Char) : Stops IsWordChar (',' :: cs) := by rintro c ⟨⟩; decide
      have text : namesText (n :: m :: names) = n.toList ++ ',' :: ([' '] ++ namesText (m :: names)) := by
        simp [namesText, List.intercalate_cons_cons]
      rw [text, List.map_cons, itemList_cons (by simp), List.append_assoc, List.append_assoc, List.cons_append,
        ← List.append_assoc]
      exact .cons blank (name.spells (stops _)) (@Opens.cons _ _ _ [] [','] _ _ close .symbol others)

def listText (names : List String) : List Char :=
  [' ', '('] ++ namesText names ++ [')']

theorem opens_list {names : List String} (filled : names ≠ []) (each : ∀ n ∈ names, IsName n) (rest : List Char) :
    Opens EndsPlain (nameList (names.map readName)) (listText names ++ rest) rest := by
  have items := @opens_names _ filled each [] (by simp [IsGap]) rest
  have text : listText names ++ rest = [' '] ++ ['('] ++ ([] ++ namesText names ++ ')' :: rest) := by simp [listText]
  rw [text, nameList, List.map_map]
  exact .cons (by decide) .symbol items

theorem opens_selection {table : String} (name : IsName table) (columns : Columns) {text : List Char}
    (opens : ∀ rest, Opens EndsPlain (selectColumns columns) (text ++ rest) rest)
    (stops : ∀ rest, Stops IsWordChar (text ++ rest)) :
    Opens EndsPlain (selection (readName table) columns)
      ([] ++ "SELECT".toList ++ (text ++ ([' '] ++ "FROM".toList ++ ([' '] ++ table.toList ++ ([] ++ [';'] ++ []))))) [] := by
  have close : IsGap [] := by simp [IsGap]
  have one : IsGap [' '] := by decide
  have after : Opens EndsPlain [.keyword .from, .name (readName table), .symbol ';']
      ([' '] ++ "FROM".toList ++ ([' '] ++ table.toList ++ ([] ++ [';'] ++ []))) [] :=
    .cons one (.keyword (by decide) (by rintro c ⟨⟩; decide)) <|
      .cons one (name.spells (by decide)) <| .cons close .symbol .nil
  exact .cons close (.keyword (by decide) (stops _)) ((opens _).append after)

def insertionHead (table : String) (columns : Columns) : List Lexeme :=
  .keyword .insert :: .keyword .into :: .name table :: insertColumns columns ++ [.keyword .values, .symbol '(']

theorem opens_insertionHead {table : String} (name : IsName table) (columns : Columns) {text : List Char}
    (opens : ∀ rest, Opens EndsPlain (insertColumns columns) (text ++ rest) rest)
    (stops : ∀ rest, Stops IsWordChar (text ++ ' ' :: rest)) (rest : List Char) :
    Opens EndsPlain (insertionHead (readName table) columns)
      ([] ++ "INSERT".toList ++ ([' '] ++ "INTO".toList ++ ([' '] ++ table.toList ++
        (text ++ ([' '] ++ "VALUES".toList ++ ([' '] ++ ['('] ++ rest)))))) rest := by
  have close : IsGap [] := by simp [IsGap]
  have one : IsGap [' '] := by decide
  have after : Opens EndsPlain [.keyword .values, .symbol '('] ([' '] ++ "VALUES".toList ++ ([' '] ++ ['('] ++ rest)) rest :=
    .cons one (.keyword (by decide) (by rintro c ⟨⟩; decide)) <| .cons one .symbol .nil
  exact .cons close (.keyword (by decide) (by rintro c ⟨⟩; decide)) <|
    .cons one (.keyword (by decide) (by rintro c ⟨⟩; decide)) <|
      .cons one (name.spells (stops _)) ((opens _).append after)

def insertHead : Parser (String × Columns) := do
  Parser.expect (.keyword .into)
  let table ← Parser.name "table name"
  let columns ← Parser.insertColumns
  Parser.expect (.keyword .values)
  Parser.expect .opening
  return (table, columns)

def atEnd : Parser Unit := do
  match ← Parser.next with
  | .endOfText => return ()
  | t => Parser.blame t "end of input"

def literalsToEnd : Parser (List String) := do
  let values ← Parser.literals
  Parser.expect .semicolon
  atEnd
  return values

theorem wholeStatement_eq : Parser.wholeStatement = Parser.statement >>= fun s => atEnd >>= fun _ => pure s := by
  delta Parser.wholeStatement atEnd
  refine bind_congr fun s => ?_
  refine Eq.trans (bind_congr fun t => ?_) (bind_assoc ..).symm
  cases t <;> rfl

theorem insert_eq : Parser.insert = insertHead >>= fun head => do
    let values ← Parser.literals
    Parser.expect .semicolon
    return ⟨head.1, head.2, values⟩ := by
  simp only [Parser.insert, insertHead, bind_assoc, pure_bind]

theorem reads_insertHead : Reads insertHead fun head ls =>
    head.2 ≠ .named [] ∧ .keyword .insert :: ls = insertionHead head.1 head.2 := by
  have reads := reads_expect_bind (shows_keyword .into) <| reads_name_bind "table name" fun table =>
    reads_insertColumns.bind fun columns => reads_expect_pure shows_opening (table, columns)
  simp only [bind_assoc, pure_bind] at reads
  refine reads.congr fun head ls => ?_
  rcases head with ⟨table, columns⟩
  simp [insertionHead, and_assoc]

theorem parse_insertion {sql : String} {table : String} {columns : Columns} {rest : List Char}
    (named : columns ≠ .named [])
    (opens : Opens EndsPlain (insertionHead table columns) sql.toList rest) :
    Statement.parse sql =
      (literalsToEnd ⟨none, rest⟩).map fun found => .insert ⟨table, columns, found.1⟩ := by
  obtain ⟨mid, first, others⟩ := opens_cons_iff.mp opens
  have token : Parser.next ⟨none, sql.toList⟩ = .ok (.keyword .insert, ⟨none, mid⟩) :=
    congrArg Except.ok ((shows_keyword .insert).next_iff.mpr first)
  have head : insertHead ⟨none, mid⟩ = .ok ((table, columns), ⟨none, rest⟩) :=
    (reads_insertHead _ _ _).mpr ⟨_, rest, rfl, ⟨named, rfl⟩, others⟩
  have body : (Parser.literals >>= fun values => Parser.expect .semicolon >>= fun _ => atEnd >>= fun _ =>
      pure (Statement.insert ⟨table, columns, values⟩)) =
        literalsToEnd >>= fun values => pure (Statement.insert ⟨table, columns, values⟩) := by
    simp only [literalsToEnd, bind_assoc, pure_bind]
  rw [parse_eq, wholeStatement_eq, Parser.statement, bind_assoc, StateT.bind_of_ok _ token]
  simp only [insert_eq, bind_assoc, pure_bind]
  rw [StateT.bind_of_ok _ head, body]
  simp only [bind, StateT.bind, Except.bind]
  cases literalsToEnd ⟨none, rest⟩ <;> rfl

end Grammar

open Grammar

def selectAll (t : Table) : String :=
  "SELECT * FROM " ++ t.name ++ ";"

def selectNamed (t : Table) : String :=
  "SELECT (" ++ ", ".intercalate t.columnNames ++ ") FROM " ++ t.name ++ ";"

def insertAll (t : Table) (tail : String) : String :=
  "INSERT INTO " ++ t.name ++ " VALUES (" ++ tail

def insertNamed (t : Table) (tail : String) : String :=
  "INSERT INTO " ++ t.name ++ " (" ++ ", ".intercalate t.columnNames ++ ") VALUES (" ++ tail

variable {t : Table}

theorem parse_selectAll (name : IsName t.name) :
    Statement.parse (selectAll t) = .ok (.select ⟨readName t.name, .all⟩) := by
  have columns (rest : List Char) : Opens EndsPlain (selectColumns .all) ([' '] ++ ['*'] ++ rest) rest :=
    .cons (by decide) .symbol .nil
  have opens := opens_selection name .all columns (fun _ => by rintro c ⟨⟩; decide)
  refine Spelling.parse_eq_ok ⟨_, [], .select (by simp), ?_, by simp [IsGap]⟩
  convert opens using 1
  delta selectAll
  simp

theorem parse_selectNamed (name : IsName t.name) (filled : t.columnNames ≠ []) (each : ∀ n ∈ t.columnNames, IsName n) :
    Statement.parse (selectNamed t) = .ok (.select ⟨readName t.name, .named (t.columnNames.map readName)⟩) := by
  have opens := opens_selection name (.named _) (opens_list filled each) (fun _ => by rintro c ⟨⟩; decide)
  refine Spelling.parse_eq_ok ⟨_, [], .select (by simpa using filled), ?_, by simp [IsGap]⟩
  convert opens using 1
  delta selectNamed
  simp [listText, namesText]

theorem opens_insertAll (name : IsName t.name) (tail : String) :
    Opens EndsPlain (insertionHead (readName t.name) .all) (insertAll t tail).toList tail.toList := by
  have opens := @opens_insertionHead _ name .all [] (fun _ => .nil)
    (fun _ => by rintro c ⟨⟩; decide) tail.toList
  convert opens using 1
  delta insertAll
  simp

theorem opens_insertNamed (name : IsName t.name) (filled : t.columnNames ≠ []) (each : ∀ n ∈ t.columnNames, IsName n)
    (tail : String) :
    Opens EndsPlain (insertionHead (readName t.name) (.named (t.columnNames.map readName))) (insertNamed t tail).toList
      tail.toList := by
  have opens := opens_insertionHead name (.named _) (opens_list filled each)
    (fun _ => by rintro c ⟨⟩; decide) tail.toList
  convert opens using 1
  delta insertNamed
  simp [listText, namesText]

theorem Select.target_written_out {db : Database} {name : String} (own : ∀ u, db.table? name = some u → u = t) :
    Select.target ⟨name, .named t.columnNames⟩ db = Select.target ⟨name, .all⟩ db := by
  simp only [Select.target, Database.table]
  cases found : db.table? name with
  | none => rfl
  | some u =>
    cases own u found
    rfl

theorem Insert.row_written_out {db : Database} {name : String} (own : ∀ u, db.table? name = some u → u = t)
    (values : List String) (fresh : Identifier) :
    Insert.row ⟨name, .named t.columnNames, values⟩ db fresh = Insert.row ⟨name, .all, values⟩ db fresh := by
  simp only [Insert.row, Database.table]
  cases found : db.table? name with
  | none => rfl
  | some u =>
    cases own u found
    rfl

end Sql

open Sql Sql.Grammar

namespace RowStore

variable {σ : Type} [Storage σ] {s : RowStore} {store : σ} {fresh : Identifier} {sql sql' : String}

theorem runInsert_congr {i j : Sql.Insert} (same : i.row s.schema fresh = j.row s.schema fresh) :
    s.runInsert store fresh i = s.runInsert store fresh j := by
  rw [runInsert, same, runInsert]

theorem runSelect_congr {q r : Sql.Select} (same : q.target s.schema = r.target s.schema) :
    s.runSelect store q = s.runSelect store r := by
  rw [runSelect, same, runSelect]

theorem execute_congr_insertion {table : String} {columns columns' : Sql.Columns} {rest : List Char}
    (named : columns ≠ .named []) (named' : columns' ≠ .named [])
    (opens : Opens EndsPlain (insertionHead table columns) sql.toList rest)
    (opens' : Opens EndsPlain (insertionHead table columns') sql'.toList rest)
    (same : ∀ values, Sql.Insert.row ⟨table, columns, values⟩ s.schema fresh =
      Sql.Insert.row ⟨table, columns', values⟩ s.schema fresh) :
    s.execute store fresh sql = s.execute store fresh sql' := by
  rw [execute, execute, parse_insertion named opens, parse_insertion named' opens']
  cases literalsToEnd ⟨none, rest⟩ with
  | error e => rfl
  | ok found => exact runInsert_congr (same found.1)

theorem query_congr_of_execute {kind : StatementKind} (parsed : kind ∈ Sql.parsedKinds)
    (told : StatementKind.ofText? sql = some kind) (told' : StatementKind.ofText? sql' = some kind)
    (same : s.execute store fresh sql = s.execute store fresh sql') :
    s.query store fresh sql = s.query store fresh sql' := by
  rw [query_of_kind told parsed, query_of_kind told' parsed, same]

end RowStore

/-- A SELECT of all columns and an INSERT that names none do what the same statements with all columns written out
do, if a column is called as a keyword only in small letters, and no other table is found by the name as it is read. -/
theorem all_columns_as_written_out {s : RowStore} {t : Table} (valid : t.validate = .ok ()) (name : IsName t.name)
    (columns : ∀ n ∈ t.columnNames, IsName n ∧ readName n = n)
    (own : ∀ u, s.schema.table? (readName t.name) = some u → u = t) {σ : Type} [Storage σ] (store : σ)
    (fresh : Identifier) :
    (s.execute store fresh (selectAll t) = s.execute store fresh (selectNamed t) ∧
      s.query store fresh (selectAll t) = s.query store fresh (selectNamed t)) ∧
    ∀ tail, s.execute store fresh (insertAll t tail) = s.execute store fresh (insertNamed t tail) ∧
      s.query store fresh (insertAll t tail) = s.query store fresh (insertNamed t tail) := by
  have filled := Table.columnNames_ne_nil valid
  have each : ∀ n ∈ t.columnNames, IsName n := fun n member => (columns n member).1
  have same : t.columnNames.map readName = t.columnNames := by
    rw [List.map_congr_left fun n member => (columns n member).2, List.map_id']
  refine ⟨?_, fun tail => ?_⟩
  · have all := parse_selectAll name
    have named := parse_selectNamed name filled each
    rw [same] at named
    have executed : s.execute store fresh (selectAll t) = s.execute store fresh (selectNamed t) := by
      rw [RowStore.execute, RowStore.execute, all, named]
      exact RowStore.runSelect_congr (Select.target_written_out own).symm
    have told := ofText?_eq_some (spelling_of_parse all)
    have told' := ofText?_eq_some (spelling_of_parse named)
    exact ⟨executed, RowStore.query_congr_of_execute (Statement.kind_mem _) told told' executed⟩
  · have all := opens_insertAll name tail
    have named := opens_insertNamed name filled each tail
    rw [same] at named
    have executed : s.execute store fresh (insertAll t tail) = s.execute store fresh (insertNamed t tail) :=
      RowStore.execute_congr_insertion (by simp) (by simpa using filled) all named fun values =>
        (Insert.row_written_out own values fresh).symm
    have told : StatementKind.ofText? (insertAll t tail) = some .insert := ofText?_of_opens rfl all
    have told' : StatementKind.ofText? (insertNamed t tail) = some .insert := ofText?_of_opens rfl named
    exact ⟨executed, RowStore.query_congr_of_execute (by decide) told told' executed⟩

def visits (time : String) : Table :=
  ⟨"v", [⟨"n", .int⟩, ⟨time, .time⟩], []⟩

def visitStore (time : String) : RowStore :=
  .ofSchema { Database.blank "visits" with tables := [visits time] }

theorem isName_visits (time : String) : IsName (visits time).name := by
  change IsName "v"
  exact isName_of_word (.mk (by decide) (by simp)) (by decide)

theorem isName_column {time : String} (name : IsName time) : ∀ n ∈ (visits time).columnNames, IsName n := by
  have number : IsName "n" := isName_of_word (.mk (by decide) (by simp)) (by decide)
  simpa [visits, Table.columnNames] using ⟨number, name⟩

theorem all_columns_as_written_out_visits :
    (visits "time").validate = .ok () ∧ IsName (visits "time").name ∧
    (∀ n ∈ (visits "time").columnNames, IsName n ∧ readName n = n) ∧
    (∀ t, (visitStore "time").schema.table? (readName (visits "time").name) = some t → t = visits "time") ∧
    ((visitStore "time").execute Memory.empty .zero (selectAll (visits "time")) =
        (visitStore "time").execute Memory.empty .zero (selectNamed (visits "time")) ∧
      (visitStore "time").query Memory.empty .zero (selectAll (visits "time")) =
        (visitStore "time").query Memory.empty .zero (selectNamed (visits "time"))) ∧
    ∀ tail, (visitStore "time").execute Memory.empty .zero (insertAll (visits "time") tail) =
        (visitStore "time").execute Memory.empty .zero (insertNamed (visits "time") tail) ∧
      (visitStore "time").query Memory.empty .zero (insertAll (visits "time") tail) =
        (visitStore "time").query Memory.empty .zero (insertNamed (visits "time") tail) := by
  have valid : (visits "time").validate = .ok () := by decide
  have name := isName_visits "time"
  have time : IsName "time" := isName_of_word (.mk (by decide) (by simp; decide)) (by decide)
  have read : ∀ n ∈ (visits "time").columnNames, readName n = n := by decide
  have columns : ∀ n ∈ (visits "time").columnNames, IsName n ∧ readName n = n := fun n member =>
    ⟨isName_column time n member, read n member⟩
  have own : ∀ t, (visitStore "time").schema.table? (readName (visits "time").name) = some t → t = visits "time" := by
    intro t found
    cases found
    rfl
  exact ⟨valid, name, columns, own, all_columns_as_written_out valid name columns own _ _⟩

/-- A column that is called `Time` is read under the name `time` where it is written out. -/
theorem capital_column_written_out : ¬∀ (s : RowStore) (t : Table) (store : Memory) (fresh : Identifier),
    s.schema.table? t.name = some t → t.validate = .ok () → IsName t.name → (∀ n ∈ t.columnNames, IsName n) →
      s.execute store fresh (selectAll t) = s.execute store fresh (selectNamed t) ∧
      ∀ tail, s.execute store fresh (insertAll t tail) = s.execute store fresh (insertNamed t tail) := by
  intro alike
  have name := isName_visits "Time"
  have time : IsName "Time" := isName_of_word (.mk (by decide) (by simp; decide)) (by decide)
  have each := isName_column time
  have same := (alike (visitStore "Time") (visits "Time") Memory.empty .zero rfl (by decide) name each).1
  have named := parse_selectNamed name (by decide) each
  rw [RowStore.execute, RowStore.execute, parse_selectAll name, named] at same
  cases congrArg Outcome.result same

end RowBase
