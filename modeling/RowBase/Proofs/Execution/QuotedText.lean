import RowBase.Proofs.Execution.WrittenRows

namespace RowBase

open Sql.Grammar

/-- An INSERT that names a string column once and gives a quoted text for it. -/
structure InsertsQuoted (s : RowStore) (c : Call) (table column text : String) : Prop where
  typed : ∃ t col, s.schema.table? table = some t ∧ t.column? column = some col ∧ col.type = .string
  spelled : ∃ (names : List String) (literals : List Literal) (rest : List Char) (k : Nat),
    Opens EndsPlain (insertion table (.named names) literals) c.sql.toList rest ∧ IsGap rest ∧
      names.count column = 1 ∧ names[k]? = some column ∧ literals[k]? = some (.quoted text)

/-- The row under an identity has the field, and a SELECT of its column gives the row with it. -/
structure GivesBack {σ : Type} [Storage σ] (s : RowStore) (store : σ) (table identity column : String) (f : Field) :
    Prop where
  stored : ∃ bs row, Storage.read store table identity = .ok (some bs) ∧ Row.decode bs = .ok row ∧
    row.field? column = some f
  selected : ∀ c : Call, Spelling EndsPlain (.select ⟨table, .named [column]⟩) c.sql.toList →
    ∃ rows, (s.call store c).1 = c.handle.reply (.ok (.selected [column] rows)) ∧ .ofFields table [f] ∈ rows

def quotedField (column text : String) : Field :=
  if Text.sameLetters text "null" then .null column .string else .ofValue column .string (.string text)

theorem Table.Coerces.eq_quotedField {t : Table} {column text : String} {f : Field}
    (coerces : t.Coerces column text f) {col : Column} (found : t.column? column = some col)
    (type : col.type = .string) : f = quotedField column text := by
  have named := name_of_column? found
  cases coerces with
  | null column _ word =>
    rw [found] at column
    cases column
    rw [quotedField, if_pos word, named, type]
  | value column other read =>
    rw [found] at column
    cases column
    rw [type] at read
    cases read
    rw [quotedField, if_neg (by simp [other]), named, type]

theorem find?_of_coerces {t : Table} {column text : String} {names literals : List String} {fields : List Field}
    (each : List.Forall₂ (fun nl f => t.Coerces nl.1 nl.2 f) (names.zip literals) fields)
    (once : names.count column = 1) {k : Nat} (name : names[k]? = some column) (literal : literals[k]? = some text) :
    ∃ f, fields.find? (·.name == column) = some f ∧ t.Coerces column text f := by
  induction names generalizing literals fields k with
  | nil => simp at name
  | cons n names ih =>
    cases literals with
    | nil => simp at literal
    | cons l literals =>
      rw [List.zip_cons_cons, List.forall₂_cons_left_iff] at each
      obtain ⟨f, fields, first, others, rfl⟩ := each
      cases k with
      | zero =>
        simp only [List.getElem?_cons_zero, Option.some.injEq] at name literal
        subst name literal
        exact ⟨f, by simp [first.name_eq], first⟩
      | succ k =>
        -- The name comes later, so it cannot be this one too.
        rw [List.getElem?_cons_succ] at name literal
        have later : column ∈ names := List.mem_of_getElem? name
        have positive := List.count_pos_iff.mpr later
        have other : n ≠ column := by
          intro same
          subst same
          rw [List.count_cons_self] at once
          omega
        rw [List.count_cons_of_ne other] at once
        obtain ⟨g, found, coerces⟩ := ih others once name literal
        exact ⟨g, by simpa [first.name_eq, other] using found, coerces⟩

theorem Table.Identifies.find? {t : Table} {fields fields' : List Field} {fresh : Identifier} {identity : String}
    (identifies : t.Identifies fields fresh identity fields') {p : Field → Bool} {f : Field}
    (found : fields.find? p = some f) : fields'.find? p = some f := by
  cases identifies with
  | unkeyed | supplied => exact found
  | synthesized => rw [List.find?_append, found, Option.some_or]

variable {σ : Type} [Storage σ] [LawfulStorage σ]

theorem InsertsQuoted.parse {s : RowStore} {c : Call} {table column text : String}
    (inserts : InsertsQuoted s c table column text) :
    ∃ (names values : List String) (k : Nat), Sql.Statement.parse c.sql = .ok (.insert ⟨table, .named names, values⟩) ∧
      names.count column = 1 ∧ names[k]? = some column ∧ values[k]? = some text := by
  obtain ⟨names, literals, rest, k, opens, blank, once, name, literal⟩ := inserts.spelled
  have named : Sql.Columns.named names ≠ .named [] := by
    intro h
    cases h
    simp at name
  have given : literals ≠ [] := by
    intro same
    subst same
    simp at literal
  have spelling : Spelling EndsPlain (.insert ⟨table, .named names, literals.map Literal.value⟩) c.sql.toList :=
    ⟨_, rest, .insert named given, opens, blank⟩
  exact ⟨names, _, k, spelling.parse_eq_ok, once, name, by simp [literal, Literal.value]⟩

theorem givesBack_of_written {s : RowStore} {store store' : σ} {t : Table} {identity column : String} {row : Row}
    {f : Field} (table : s.schema.table? t.name = some t) (known : column ∈ t.columnNames) (named : row.table = t.name)
    (alive : row.deleted = false) (small : row.encode.length ≤ maxRowSize)
    (written : Storage.write store t.name identity row.encode = (.ok (), store'))
    (found : row.field? column = some f) : GivesBack s store' t.name identity column f := by
  have decoded := Row.decode_encode (Nat.lt_of_le_of_lt small (by decide) : row.encode.length < 2 ^ 64)
  have read := LawfulStorage.read_of_write written
  have cut : { row with fields := [f] } = Row.ofFields t.name [f] := by rw [named, alive, Row.ofFields]
  have shows : s.Shows store' ⟨t.name, .named [column]⟩ t identity { row with fields := [f] } :=
    shows_of_written table (by simpa [Sql.Columns.resolve] using known) small written (.cons found .nil)
  rw [cut] at shows
  exact ⟨⟨_, row, read, decoded, found⟩, fun c spelling => shows.selected c spelling.parse_eq_ok⟩

theorem Handle.eq_inserted {h : Handle} {r : Except Error ResultSet} {identity : String}
    (same : h.reply r = h.reply (.ok (.inserted identity))) : r = .ok (.inserted identity) := by
  cases h with
  | session =>
    cases same
    rfl
  | connection =>
    cases r with
    | error e => simp [reply, Except.map] at same
    | ok result =>
      cases result with
      | selected columns rows => simp [reply, Except.map, Cursor.ofResult] at same
      | inserted identity' => simpa [reply, Except.map, Cursor.ofResult] using same

/-- A text in quotes comes back as it was given; only the word `null` becomes a null field. -/
theorem quoted_text_given_back {s : RowStore} {store : σ} {c : Call} {table column text identity : String}
    (inserts : InsertsQuoted s c table column text)
    (succeeds : (s.call store c).1 = c.handle.reply (.ok (.inserted identity))) :
    GivesBack s (s.call store c).2 table identity column (quotedField column text) := by
  obtain ⟨t, col, found, typed, type⟩ := inserts.typed
  obtain ⟨names, values, k, parsed, once, name, literal⟩ := inserts.parse
  obtain ⟨r, reply, effect⟩ := s.call_effect store c
  rw [reply] at succeeds
  cases Handle.eq_inserted succeeds
  generalize (s.call store c).2 = store' at effect ⊢
  cases effect with
  | @inserted i identity row store' parsed' made fits written =>
    rw [parsed] at parsed'
    cases parsed'
    obtain ⟨t', coerced, fields, found', coerces, identifies, rfl⟩ := Sql.Insert.row_eq_ok_iff.mp made
    rw [found] at found'
    cases found'
    obtain ⟨f, first, own⟩ := find?_of_coerces (Table.coerce_eq_ok_iff.mp coerces).2 once name literal
    cases own.eq_quotedField typed type
    have named := Database.name_of_table? found
    subst named
    have known : column ∈ t.columnNames := by
      rw [← Table.column?_isSome_iff, typed]
      rfl
    exact givesBack_of_written found known rfl rfl (Nat.le_trans fits s.limit_le) written (identifies.find? first)

def labels : RowStore :=
  .ofSchema { Database.blank "labels" with
    tables := [⟨"t", [⟨"s", .string⟩], [⟨"distinct", "s", false, true, false, none, none⟩]⟩] }

def insertLabel (text : String) : Call :=
  ⟨.session, .ofList ("INSERT INTO t (s) VALUES (".toList ++ (Literal.quoted text).written ++ ");".toList), .zero⟩

theorem opens_label (text : String) :
    Opens EndsPlain (insertion "t" (.named ["s"]) [.quoted text]) (insertLabel text).sql.toList [] := by
  have none : IsGap [] := by decide
  have one : IsGap [' '] := by decide
  have word {c : Char} {rest : List Char} (letter : IsLetter c) (plain : ∀ k, ¬IsKeyword k [c])
      (stops : Stops IsWordChar rest) : Spells EndsPlain (.name (.ofList [c])) [c] rest :=
    .plainName (.mk letter (by simp)) plain stops
  let after := (Literal.quoted text).written ++ ");".toList
  rw [insertLabel, String.toList_ofList, List.append_assoc]
  apply @Opens.cons _ _ _ [] "INSERT".toList (" INTO t (s) VALUES (".toList ++ after) _ none
  · exact .keyword (by decide) (by rintro c ⟨⟩; decide)
  apply @Opens.cons _ _ _ [' '] "INTO".toList (" t (s) VALUES (".toList ++ after) _ one
  · exact .keyword (by decide) (by rintro c ⟨⟩; decide)
  apply @Opens.cons _ _ _ [' '] "t".toList (" (s) VALUES (".toList ++ after) _ one
  · exact word (by decide) (by intro k; cases k <;> decide) (by rintro c ⟨⟩; decide)
  apply @Opens.cons _ _ _ [' '] "(".toList ("s) VALUES (".toList ++ after) _ one .symbol
  apply @Opens.cons _ _ _ [] "s".toList (") VALUES (".toList ++ after) _ none
  · exact word (by decide) (by intro k; cases k <;> decide) (by rintro c ⟨⟩; decide)
  apply @Opens.cons _ _ _ [] ")".toList (" VALUES (".toList ++ after) _ none .symbol
  apply @Opens.cons _ _ _ [' '] "VALUES".toList (" (".toList ++ after) _ one
  · exact .keyword (by decide) (by rintro c ⟨⟩; decide)
  apply @Opens.cons _ _ _ [' '] "(".toList after _ one .symbol
  apply @Opens.cons _ _ _ [] (Literal.quoted text).written ");".toList _ none (.quoted (by decide))
  apply @Opens.cons _ _ _ [] ")".toList ";".toList _ none .symbol
  exact @Opens.cons _ _ _ [] ";".toList [] _ none .symbol .nil

theorem insertsQuoted_label (text : String) : InsertsQuoted labels (insertLabel text) "t" "s" text where
  typed := ⟨_, _, rfl, rfl, rfl⟩
  spelled := ⟨["s"], [.quoted text], [], 0, opens_label text, by simp [IsGap], rfl, rfl, rfl⟩

theorem call_label {text identity : String} {row : Row}
    (made : Sql.Insert.row ⟨"t", .named ["s"], [text]⟩ labels.schema .zero = .ok (identity, row))
    (fits : row.encode.length ≤ labels.limit) (space : isUnitName row.table = true) (key : isUnitName identity = true) :
    labels.call Memory.empty (insertLabel text) =
      (.result (.ok (.inserted identity)), Memory.empty.insert row.table identity row.encode) := by
  have spelling : Spelling EndsPlain (.insert ⟨"t", .named ["s"], [text]⟩) (insertLabel text).sql.toList :=
    ⟨_, [], @Sentence.insert "t" (.named ["s"]) [.quoted text] (by decide) (by simp), opens_label text, by decide⟩
  exact RowStore.call_of_row spelling.parse_eq_ok made fits space key Memory.empty

theorem quoted_text_given_back_quote :
    GivesBack labels (labels.call Memory.empty (insertLabel "it's, or not;")).2 "t" Identifier.zero.text "s"
      (.ofValue "s" .string (.string "it's, or not;")) := by
  have made : Sql.Insert.row ⟨"t", .named ["s"], ["it's, or not;"]⟩ labels.schema .zero =
      .ok (Identifier.zero.text, .ofFields "t" [.ofValue "s" .string (.string "it's, or not;")]) := rfl
  have called := call_label made (by decide) (by decide) (by decide)
  exact quoted_text_given_back (insertsQuoted_label _) (congrArg Prod.fst called)

/-- Quotes do not keep the word `null` from being read as null. -/
theorem quoted_null_is_null : ¬∀ (s : RowStore) (store : Memory) (c : Call) (table column text identity : String),
    InsertsQuoted s c table column text → (s.call store c).1 = c.handle.reply (.ok (.inserted identity)) →
      GivesBack s (s.call store c).2 table identity column (.ofValue column .string (.string text)) := by
  intro kept
  have made : Sql.Insert.row ⟨"t", .named ["s"], ["null"]⟩ labels.schema .zero =
      .ok (Identifier.zero.text, .ofFields "t" [.null "s" .string]) := rfl
  have called := call_label made (by decide) (by decide) (by decide)
  have given := kept _ _ _ _ _ _ _ (insertsQuoted_label "null") (congrArg Prod.fst called)
  obtain ⟨bs, row, read, decoded, found⟩ := given.stored
  rw [called] at read
  have stored : (Memory.empty.insert "t" Identifier.zero.text _).find? "t" Identifier.zero.text = some bs :=
    LawfulStorage.units_of_read read
  rw [Memory.find?_insert_self] at stored
  cases stored
  rw [Row.decode_encode (by decide)] at decoded
  cases decoded
  cases found

end RowBase
