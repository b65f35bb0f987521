import RowBase.Proofs.Execution.Insertion
import RowBase.Proofs.Reading

namespace RowBase

theorem exists_forall₂_iff {α β : Type} {R : α → β → Prop} {as : List α} :
    (∃ bs, List.Forall₂ R as bs) ↔ ∀ a ∈ as, ∃ b, R a b := by
  induction as with
  | nil => simp
  | cons a as ih =>
    rw [List.forall_mem_cons, ← ih]
    constructor
    · intro h
      obtain ⟨_, each⟩ := h
      obtain ⟨b, bs, first, others, -⟩ := List.forall₂_cons_left_iff.mp each
      exact ⟨⟨b, first⟩, bs, others⟩
    · intro h
      obtain ⟨⟨b, first⟩, bs, others⟩ := h
      exact ⟨b :: bs, .cons first others⟩

theorem Except.mapM_eq_error_iff {ε α β : Type} {f : α → Except ε β} {as : List α} {e : ε} :
    as.mapM f = .error e ↔
      ∃ before a after, as = before ++ a :: after ∧ (∀ b ∈ before, ∃ c, f b = .ok c) ∧ f a = .error e := by
  induction as with
  | nil => simp [pure, Except.pure]
  | cons a as ih =>
    have steps : (a :: as).mapM f = .error e ↔ f a = .error e ∨ ∃ c, f a = .ok c ∧ as.mapM f = .error e := by
      simp [List.mapM_cons, Except.bind_eq_error_iff, pure, Except.pure]
    rw [steps, ih]
    constructor
    · intro h
      rcases h with failed | ⟨c, first, before, b, after, rfl, passed, failed⟩
      · exact ⟨[], a, as, rfl, by simp, failed⟩
      · exact ⟨a :: before, b, after, rfl, by simpa [first] using passed, failed⟩
    · intro h
      obtain ⟨before, b, after, split, passed, failed⟩ := h
      -- The element that fails is the first of all, or the first of all passes.
      rcases List.cons_eq_append_iff.mp split with ⟨rfl, head⟩ | ⟨others, rfl, rfl⟩
      · cases head
        exact .inl failed
      · obtain ⟨c, first⟩ := passed a (by simp)
        exact .inr ⟨c, first, others, b, after, rfl, fun d member => passed d (by simp [member]), failed⟩

def IsNullWord (literal : String) : Prop :=
  literal.toList.map Char.toLower = ['n', 'u', 'l', 'l']

theorem sameLetters_null_iff {literal : String} :
    Text.sameLetters literal "null" = true ↔ IsNullWord literal := by
  have word : "null".toList.map Char.toLower = ['n', 'u', 'l', 'l'] := by decide
  rw [Text.sameLetters, word, beq_iff_eq, IsNullWord]

theorem sameLetters_null_eq_false_iff {literal : String} :
    Text.sameLetters literal "null" = false ↔ ¬IsNullWord literal := by
  rw [← sameLetters_null_iff, Bool.not_eq_true]

namespace Table

def FirstColumn (t : Table) (name : String) (c : Column) : Prop :=
  c.name = name ∧ ∃ before after, t.columns = before ++ c :: after ∧ ∀ b ∈ before, b.name ≠ name

def Constrains (t : Table) (name : String) : Prop :=
  ∃ k ∈ t.constraints, k.column = name

variable {t : Table} {name literal : String}

theorem column?_eq_some_iff {c : Column} : t.column? name = some c ↔ t.FirstColumn name c := by
  simp [column?, FirstColumn, List.find?_eq_some_iff_append]

theorem column?_eq_none_iff : t.column? name = none ↔ ∀ c ∈ t.columns, c.name ≠ name := by
  simp [column?]

theorem constraint?_eq_some_iff : (∃ k, t.constraint? name = some k) ↔ t.Constrains name := by
  rw [← Option.isSome_iff_exists, constraint?, List.find?_isSome]
  simp [Constrains]

theorem constraint?_eq_none_iff : t.constraint? name = none ↔ ¬t.Constrains name := by
  simp [constraint?, Constrains]

/-- A column takes the word `null` if the table has any constraint on it, and each literal of its type. -/
inductive Accepts (t : Table) (name literal : String) : Prop
  | null {c : Column} (column : t.FirstColumn name c) (word : IsNullWord literal) (constrains : t.Constrains name)
  | value {c : Column} {v : Value} (column : t.FirstColumn name c) (other : ¬IsNullWord literal)
      (read : Value.ofLiteral c.type literal = .ok v)

inductive Refuses (t : Table) (name literal : String) : Error → Prop
  | unknown (absent : ∀ c ∈ t.columns, c.name ≠ name) : Refuses t name literal (.columnNotFound name)
  | notNullable {c : Column} (column : t.FirstColumn name c) (word : IsNullWord literal)
      (free : ¬t.Constrains name) : Refuses t name literal (.columnNotNullable name)
  | unread {c : Column} {e : Error} (column : t.FirstColumn name c) (other : ¬IsNullWord literal)
      (failed : Value.ofLiteral c.type literal = .error e) : Refuses t name literal e

/-- Some pair of a name and a literal is refused, and all pairs before it are accepted. -/
def RefusesFirst (t : Table) (pairs : List (String × String)) (e : Error) : Prop :=
  ∃ before name literal after, pairs = before ++ (name, literal) :: after ∧
    (∀ p ∈ before, t.Accepts p.1 p.2) ∧ t.Refuses name literal e

theorem Coerces.accepts {f : Field} (coerces : t.Coerces name literal f) : t.Accepts name literal := by
  cases coerces with
  | null column constraint word =>
    exact .null (column?_eq_some_iff.mp column) (sameLetters_null_iff.mp word)
      (constraint?_eq_some_iff.mp ⟨_, constraint⟩)
  | value column other read =>
    exact .value (column?_eq_some_iff.mp column) (sameLetters_null_eq_false_iff.mp other) read

theorem Accepts.coerces (accepts : t.Accepts name literal) : ∃ f, t.Coerces name literal f := by
  cases accepts with
  | null column word constrains =>
    obtain ⟨k, constraint⟩ := constraint?_eq_some_iff.mpr constrains
    exact ⟨_, .null (column?_eq_some_iff.mpr column) constraint (sameLetters_null_iff.mpr word)⟩
  | value column other read =>
    exact ⟨_, .value (column?_eq_some_iff.mpr column) (sameLetters_null_eq_false_iff.mpr other) read⟩

theorem exists_coerces_iff : (∃ f, t.Coerces name literal f) ↔ t.Accepts name literal :=
  ⟨fun ⟨_, coerces⟩ => coerces.accepts, Accepts.coerces⟩

theorem coerceField_eq_error_iff {e : Error} : t.coerceField name literal = .error e ↔ t.Refuses name literal e := by
  constructor
  · intro failed
    unfold coerceField at failed
    split at failed
    · rename_i absent
      cases failed
      exact .unknown (column?_eq_none_iff.mp absent)
    · rename_i c column
      have column := column?_eq_some_iff.mp column
      split at failed
      · rename_i word
        split at failed
        · simp at failed
        · rename_i free
          cases failed
          exact .notNullable column (sameLetters_null_iff.mp word) (constraint?_eq_none_iff.mp free)
      · rename_i other
        cases read : Value.ofLiteral c.type literal with
        | ok v => simp [read, Except.map] at failed
        | error e' =>
          simp only [read, Except.map, Except.error.injEq] at failed
          subst failed
          exact .unread column (fun word => other (sameLetters_null_iff.mpr word)) read
  · intro refuses
    cases refuses with
    | unknown absent => simp [coerceField, column?_eq_none_iff.mpr absent]
    | notNullable column word free =>
      simp [coerceField, column?_eq_some_iff.mpr column, sameLetters_null_iff.mpr word,
        constraint?_eq_none_iff.mpr free]
    | unread column other failed =>
      simp [coerceField, column?_eq_some_iff.mpr column, sameLetters_null_eq_false_iff.mpr other, failed, Except.map]

theorem coerce_eq_error_iff {names literals : List String} {e : Error} :
    t.coerce names literals = .error e ↔
      names.length ≠ literals.length ∧ e = .lengthMismatch names.length literals.length ∨
      names.length = literals.length ∧ t.RefusesFirst (names.zip literals) e := by
  unfold coerce
  by_cases same : names.length = literals.length
  · rw [if_pos same, Except.mapM_eq_error_iff]
    simp only [same, ne_eq, not_true, false_and, false_or, true_and, RefusesFirst, Prod.exists, coerceField_eq_ok_iff,
      exists_coerces_iff, coerceField_eq_error_iff]
  · rw [if_neg same]
    simp [same, eq_comm]

end Table

structure Field.Answers (f : Field) (t : Table) (name literal : String) : Prop where
  named : f.name = name
  column : ∃ c, t.FirstColumn name c ∧ f.type = c.type
  typed : f.value.type = f.type
  null : f.isNull = true ↔ IsNullWord literal
  zero : f.isNull = true → f.value = .zero f.type ∧ t.Constrains name
  read : f.isNull = false → Value.ofLiteral f.type literal = .ok f.value

namespace Table

theorem Coerces.answers {t : Table} {name literal : String} {f : Field} (coerces : t.Coerces name literal f) :
    f.Answers t name literal := by
  cases coerces with
  | @null c k column constraint word =>
    have word := sameLetters_null_iff.mp word
    have constrains := constraint?_eq_some_iff.mp ⟨k, constraint⟩
    exact ⟨name_of_column? column, ⟨c, column?_eq_some_iff.mp column, rfl⟩, Value.type_zero _,
      ⟨fun _ => word, fun _ => rfl⟩, fun _ => ⟨rfl, constrains⟩, by simp [Field.null]⟩
  | @value c v column other read =>
    have other := sameLetters_null_eq_false_iff.mp other
    exact ⟨name_of_column? column, ⟨c, column?_eq_some_iff.mp column, rfl⟩, Value.type_ofLiteral read,
      ⟨by simp [Field.ofValue], fun word => absurd word other⟩, by simp [Field.ofValue], fun _ => read⟩

theorem Coerces.of_answers {t : Table} {name literal : String} {f : Field} (answers : f.Answers t name literal) :
    t.Coerces name literal f := by
  obtain ⟨c, first, type⟩ := answers.column
  have column := column?_eq_some_iff.mpr first
  have named : f.name = c.name := answers.named.trans first.1.symm
  rcases f with ⟨_, _, isNull, v⟩
  cases named
  cases type
  cases isNull with
  | true =>
    obtain ⟨value, constrains⟩ := answers.zero rfl
    obtain ⟨k, constraint⟩ := constraint?_eq_some_iff.mpr constrains
    have value : v = .zero c.type := value
    subst value
    exact .null column constraint (sameLetters_null_iff.mpr (answers.null.mp rfl))
  | false =>
    have other : ¬IsNullWord literal := fun word => by simpa using answers.null.mpr word
    exact .value column (sameLetters_null_eq_false_iff.mpr other) (answers.read rfl)

theorem coerces_iff_answers {t : Table} {name literal : String} {f : Field} :
    t.Coerces name literal f ↔ f.Answers t name literal :=
  ⟨Coerces.answers, Coerces.of_answers⟩

/-- Literals become fields if each of them is accepted, and the fields answer them in their order. Otherwise the
numbers of names and literals differ, or some literal is the first one refused. -/
theorem fields_answer_literals (t : Table) (names literals : List String) :
    ((∃ fields, t.coerce names literals = .ok fields) ↔
      names.length = literals.length ∧ ∀ p ∈ names.zip literals, t.Accepts p.1 p.2) ∧
    (∀ fields, t.coerce names literals = .ok fields ↔ names.length = literals.length ∧
      List.Forall₂ (fun p f => f.Answers t p.1 p.2) (names.zip literals) fields) ∧
    ∀ e, t.coerce names literals = .error e ↔
      names.length ≠ literals.length ∧ e = .lengthMismatch names.length literals.length ∨
      names.length = literals.length ∧ t.RefusesFirst (names.zip literals) e := by
  refine ⟨?_, fun fields => ?_, fun e => coerce_eq_error_iff⟩
  · simp only [coerce_eq_ok_iff, exists_and_left, exists_forall₂_iff, exists_coerces_iff]
  · simp only [coerce_eq_ok_iff, coerces_iff_answers]

end Table

end RowBase
