import RowBase.Sql.Reader
import RowBase.Sql.Statement

namespace RowBase.Sql

abbrev Parser (α : Type) :=
  StateT Reader (Except Error) α

namespace Parser

def blame {α : Type} (found : Token) (expected : String) : Parser α :=
  fun _ => .error (.unexpected found.text expected)

def next : Parser Token :=
  fun r => .ok r.next

def nextValue : Parser Token :=
  fun r => r.nextValue

def handBack (t : Token) : Parser Unit :=
  fun r => (r.handBack t).map fun r' => ((), r')

def expect (t : Token) : Parser Unit := do
  let found ← next
  if found = t then return () else blame found t.text

/-- Reads a name. A keyword that is not reserved is a name in small letters. -/
def name (expected : String) : Parser String := do
  match ← next with
  | .word s => return s
  | .keyword k => if k.isReserved then blame (.keyword k) expected else return k.asName
  | t => blame t expected

/-- Reads a type name. A keyword that names a type is a type name in capitals. -/
def typeName : Parser String := do
  match ← next with
  | .word s => return s
  | .keyword k => if k.isType then return k.name else blame (.keyword k) "column type"
  | t => blame t "column type"

def columnDefinition : Parser ColumnDefinition := do
  let n ← name "column name"
  let t ← typeName
  return ⟨n, t⟩

def literal : Parser String := do
  match ← nextValue with
  | .value s => return s
  | t => blame t "value"

/-- A parser that leaves no more to read than it was given. -/
def Bounded {α : Type} (p : Parser α) : Prop :=
  ∀ r a r', p r = .ok (a, r') → r'.size ≤ r.size

set_option linter.unusedVariables false in
def items {α : Type} (item : Parser α) (bounded : Bounded item) (r : Reader) :
    Except Error (List α × Reader) :=
  match h₁ : item r with
  | .error e => .error e
  | .ok (a, r₁) =>
    match h₂ : r₁.next with
    | (.closing, r₂) => .ok ([a], r₂)
    | (.comma, r₂) => (items item bounded r₂).map fun (as, r₃) => (a :: as, r₃)
    | (t, _) => .error (.unexpected t.text ", or )")
termination_by r.size
decreasing_by
  have first := bounded r a r₁ h₁
  have second := Reader.size_next_lt (r := r₁) (by rw [h₂]; simp)
  rw [h₂] at second
  exact Nat.lt_of_lt_of_le second first

theorem bounded_pure {α : Type} (a : α) : Bounded (pure a : Parser α) := by
  intro r b r' h
  have h : Except.ok (a, r) = Except.ok (b, r') := h
  cases h
  exact Nat.le_refl _

theorem bounded_blame {α : Type} (t : Token) (s : String) : Bounded (blame t s : Parser α) := by
  intro r b r' h
  simp [blame] at h

theorem bounded_bind {α β : Type} {p : Parser α} {f : α → Parser β} (hp : Bounded p)
    (hf : ∀ a, Bounded (f a)) : Bounded (p >>= f) := by
  intro r b r' h
  simp only [bind, StateT.bind, Except.bind] at h
  cases h₁ : p r with
  | error e => simp [h₁] at h
  | ok ar =>
    rcases ar with ⟨a, r₁⟩
    simp only [h₁] at h
    exact Nat.le_trans (hf a r₁ b r' h) (hp r a r₁ h₁)

theorem bounded_next : Bounded next := by
  intro r t r' h
  simp only [next, Except.ok.injEq] at h
  have := Reader.size_next_le r
  rwa [h] at this

theorem bounded_nextValue : Bounded nextValue := fun _ _ _ h =>
  Reader.size_nextValue_le h

theorem bounded_name (expected : String) : Bounded (name expected) := by
  refine bounded_bind bounded_next fun t => ?_
  split
  · exact bounded_pure _
  · split
    · exact bounded_blame _ _
    · exact bounded_pure _
  · exact bounded_blame _ _

theorem bounded_typeName : Bounded typeName := by
  refine bounded_bind bounded_next fun t => ?_
  split
  · exact bounded_pure _
  · split
    · exact bounded_pure _
    · exact bounded_blame _ _
  · exact bounded_blame _ _

theorem bounded_columnDefinition : Bounded columnDefinition :=
  bounded_bind (bounded_name _) fun _ => bounded_bind bounded_typeName fun _ => bounded_pure _

theorem bounded_literal : Bounded literal := by
  refine bounded_bind bounded_nextValue fun t => ?_
  split
  · exact bounded_pure _
  · exact bounded_blame _ _

def names : Parser (List String) :=
  items (name "field") (bounded_name _)

def literals : Parser (List String) :=
  items literal bounded_literal

def columnDefinitions : Parser (List ColumnDefinition) :=
  items columnDefinition bounded_columnDefinition

/-- The columns of an INSERT: names in parentheses, or none before `VALUES`, which is left to be read. -/
def insertColumns : Parser Columns := do
  match ← next with
  | .keyword .values => do
    handBack (.keyword .values)
    return .all
  | .opening => return .named (← names)
  | t => blame t "( or VALUES"

def selectColumns : Parser Columns := do
  match ← next with
  | .asterisk => return .all
  | .opening => return .named (← names)
  | t => blame t "* or ("

def insert : Parser Insert := do
  expect (.keyword .into)
  let table ← name "table name"
  let columns ← insertColumns
  expect (.keyword .values)
  expect .opening
  let values ← literals
  expect .semicolon
  return ⟨table, columns, values⟩

def select : Parser Select := do
  let columns ← selectColumns
  expect (.keyword .from)
  let table ← name "table name"
  expect .semicolon
  return ⟨table, columns⟩

def createTable : Parser CreateTable := do
  expect (.keyword .table)
  let table ← name "table name"
  expect .opening
  let columns ← columnDefinitions
  expect .semicolon
  return ⟨table, columns⟩

def statement : Parser Statement := do
  match ← next with
  | .keyword .insert => return .insert (← insert)
  | .keyword .select => return .select (← select)
  | .keyword .create => return .createTable (← createTable)
  | t => blame t "INSERT, SELECT or CREATE"

def wholeStatement : Parser Statement := do
  let s ← statement
  match ← next with
  | .endOfText => return s
  | t => blame t "end of input"

end Parser

def Statement.parse (sql : String) : Except Error Statement :=
  (Parser.wholeStatement.run (.ofText sql)).map (·.1)

end RowBase.Sql
