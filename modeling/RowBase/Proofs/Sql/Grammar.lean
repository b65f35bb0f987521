import RowBase.Sql.Keyword
import RowBase.Sql.Statement

namespace RowBase.Sql

def Statement.firstKeyword : Statement → Keyword
  | insert _ => .insert
  | select _ => .select
  | createTable _ => .create

namespace Grammar

def blanks : List Char :=
  [' ', '\t', '\n', '\r']

def IsGap (cs : List Char) : Prop :=
  ∀ c ∈ cs, c ∈ blanks

def IsLetter (c : Char) : Prop :=
  ('A' ≤ c ∧ c ≤ 'Z') ∨ ('a' ≤ c ∧ c ≤ 'z')

def IsWordChar (c : Char) : Prop :=
  IsLetter c ∨ ('0' ≤ c ∧ c ≤ '9') ∨ c = '_'

inductive IsWord : List Char → Prop
  | mk {c : Char} {cs : List Char} (first : IsLetter c) (others : ∀ d ∈ cs, IsWordChar d) : IsWord (c :: cs)

def IsKeyword (k : Keyword) (w : List Char) : Prop :=
  w.map Char.toUpper = k.name.toList

def Stops (p : Char → Prop) (rest : List Char) : Prop :=
  ∀ c ∈ rest.head?, ¬p c

instance (cs : List Char) : Decidable (IsGap cs) :=
  List.decidableBAll (· ∈ blanks) cs

instance (c : Char) : Decidable (IsLetter c) :=
  inferInstanceAs (Decidable (_ ∨ _))

instance (c : Char) : Decidable (IsWordChar c) :=
  inferInstanceAs (Decidable (_ ∨ _))

instance (k : Keyword) (w : List Char) : Decidable (IsKeyword k w) :=
  inferInstanceAs (Decidable (w.map Char.toUpper = k.name.toList))

instance (p : Char → Prop) [DecidablePred p] (rest : List Char) : Decidable (Stops p rest) :=
  match rest with
  | [] => isTrue fun _ member => nomatch member
  | c :: _ => decidable_of_iff (¬p c) (by simp [Stops])

inductive Literal
  | quoted (s : String)
  | plain (s : String)

def Literal.value : Literal → String
  | quoted s | plain s => s

/-- Between quotes, every quote is written twice. -/
def doubled (cs : List Char) : List Char :=
  cs.flatMap fun c => if c = '\'' then ['\'', '\''] else [c]

def Literal.written : Literal → List Char
  | quoted s => '\'' :: doubled s.toList ++ ['\'']
  | plain s => s.toList

inductive Lexeme
  | keyword (k : Keyword)
  | name (s : String)
  | typeName (s : String)
  | literal (l : Literal)
  | symbol (c : Char)

/-- The text `w`, before `rest`, spells a lexeme: it takes all the characters it can. The characters that
end a literal without quotes are given. -/
inductive Spells (ends : Char → Prop) : Lexeme → (w rest : List Char) → Prop
  | keyword {k : Keyword} {w rest : List Char} (spelled : IsKeyword k w) (stops : Stops IsWordChar rest) :
      Spells ends (.keyword k) w rest
  | plainName {w rest : List Char} (word : IsWord w) (plain : ∀ k, ¬IsKeyword k w)
      (stops : Stops IsWordChar rest) : Spells ends (.name (.ofList w)) w rest
  | keywordName {k : Keyword} {w rest : List Char} (free : k.isReserved = false) (spelled : IsKeyword k w)
      (stops : Stops IsWordChar rest) : Spells ends (.name (.ofList (w.map Char.toLower))) w rest
  | plainType {w rest : List Char} (word : IsWord w) (plain : ∀ k, ¬IsKeyword k w)
      (stops : Stops IsWordChar rest) : Spells ends (.typeName (.ofList w)) w rest
  | keywordType {k : Keyword} {w rest : List Char} (type : k.isType = true) (spelled : IsKeyword k w)
      (stops : Stops IsWordChar rest) : Spells ends (.typeName (.ofList (w.map Char.toUpper))) w rest
  | quoted {s : String} {rest : List Char} (stops : Stops (· = '\'') rest) :
      Spells ends (.literal (.quoted s)) (Literal.quoted s).written rest
  | plain {s : String} {rest : List Char} (filled : s.toList ≠ []) (bare : s.toList.head? ≠ some '\'')
      (inside : ∀ c ∈ s.toList, ¬ends c) (stops : Stops (¬ends ·) rest) :
      Spells ends (.literal (.plain s)) (Literal.plain s).written rest
  | symbol {c : Char} {rest : List Char} : Spells ends (.symbol c) [c] rest

/-- A text starts with lexemes, with blanks before each of them, and leaves a rest. -/
inductive Opens (ends : Char → Prop) : List Lexeme → (text rest : List Char) → Prop
  | nil {rest : List Char} : Opens ends [] rest rest
  | cons {l : Lexeme} {ls : List Lexeme} {gap w mid rest : List Char} (blank : IsGap gap)
      (first : Spells ends l w mid) (others : Opens ends ls mid rest) :
      Opens ends (l :: ls) (gap ++ w ++ mid) rest

def itemList : List (List Lexeme) → List Lexeme
  | [] => [.symbol ')']
  | [item] => item ++ [.symbol ')']
  | item :: items => item ++ .symbol ',' :: itemList items

def nameList (names : List String) : List Lexeme :=
  .symbol '(' :: itemList (names.map fun n => [.name n])

def definitionList (columns : List ColumnDefinition) : List Lexeme :=
  .symbol '(' :: itemList (columns.map fun c => [.name c.name, .typeName c.typeName])

def literalList (literals : List Literal) : List Lexeme :=
  .symbol '(' :: itemList (literals.map fun l => [.literal l])

def insertColumns : Columns → List Lexeme
  | .all => []
  | .named names => nameList names

def selectColumns : Columns → List Lexeme
  | .all => [.symbol '*']
  | .named names => nameList names

def insertion (table : String) (columns : Columns) (literals : List Literal) : List Lexeme :=
  [.keyword .insert, .keyword .into, .name table] ++ insertColumns columns ++
    .keyword .values :: literalList literals ++ [.symbol ';']

def selection (table : String) (columns : Columns) : List Lexeme :=
  .keyword .select :: selectColumns columns ++ [.keyword .from, .name table, .symbol ';']

def creation (table : String) (columns : List ColumnDefinition) : List Lexeme :=
  [.keyword .create, .keyword .table, .name table] ++ definitionList columns ++ [.symbol ';']

/-- The lexemes of a statement. No list in parentheses is empty. -/
inductive Sentence : Statement → List Lexeme → Prop
  | insert {table : String} {columns : Columns} {literals : List Literal} (named : columns ≠ .named [])
      (given : literals ≠ []) :
      Sentence (.insert ⟨table, columns, literals.map Literal.value⟩) (insertion table columns literals)
  | select {table : String} {columns : Columns} (named : columns ≠ .named []) :
      Sentence (.select ⟨table, columns⟩) (selection table columns)
  | create {table : String} {columns : List ColumnDefinition} (given : columns ≠ []) :
      Sentence (.createTable ⟨table, columns⟩) (creation table columns)

/-- A text spells a statement, with blanks but nothing else after it. -/
def Spelling (ends : Char → Prop) (s : Statement) (text : List Char) : Prop :=
  ∃ ls rest, Sentence s ls ∧ Opens ends ls text rest ∧ IsGap rest

/-- A comma, a semicolon, a closing parenthesis or a blank ends a literal without quotes. -/
def EndsPlain (c : Char) : Prop :=
  c = ',' ∨ c = ';' ∨ c = ')' ∨ c ∈ blanks

variable {ends : Char → Prop}

theorem Opens.append {ls ms : List Lexeme} {text mid rest : List Char} (first : Opens ends ls text mid)
    (second : Opens ends ms mid rest) : Opens ends (ls ++ ms) text rest := by
  induction first with
  | nil => exact second
  | cons blank spelled _ ih => exact .cons blank spelled (ih second)

theorem opens_append_iff {ls ms : List Lexeme} {text rest : List Char} :
    Opens ends (ls ++ ms) text rest ↔ ∃ mid, Opens ends ls text mid ∧ Opens ends ms mid rest := by
  constructor
  · intro h
    induction ls generalizing text with
    | nil => exact ⟨text, .nil, h⟩
    | cons l ls ih =>
      cases h with
      | cons blank spelled others =>
        obtain ⟨mid, first, second⟩ := ih others
        exact ⟨mid, .cons blank spelled first, second⟩
  · intro h
    rcases h with ⟨mid, first, second⟩
    exact first.append second

theorem opens_cons_iff {l : Lexeme} {ls : List Lexeme} {text rest : List Char} :
    Opens ends (l :: ls) text rest ↔ ∃ mid, Opens ends [l] text mid ∧ Opens ends ls mid rest := by
  rw [← List.singleton_append, opens_append_iff]

theorem opens_singleton_iff {l : Lexeme} {text rest : List Char} :
    Opens ends [l] text rest ↔ ∃ gap w, text = gap ++ w ++ rest ∧ IsGap gap ∧ Spells ends l w rest := by
  constructor
  · intro h
    cases h with
    | cons blank spelled others =>
      cases others
      exact ⟨_, _, rfl, blank, spelled⟩
  · intro h
    rcases h with ⟨gap, w, rfl, blank, spelled⟩
    exact .cons blank spelled .nil

theorem itemList_cons {item : List Lexeme} {items : List (List Lexeme)} (more : items ≠ []) :
    itemList (item :: items) = item ++ .symbol ',' :: itemList items := by
  cases items with
  | nil => exact absurd rfl more
  | cons next items => rfl

end Grammar

end RowBase.Sql
