import RowBase.Proofs.Sql.ReaderRequests

namespace RowBase.Sql

def Token.literals : Token → List String
  | value s => [s]
  | _ => []

def Statement.literals : Statement → List String
  | insert i => i.values
  | _ => []

namespace Reader

/-- A token can always be read in statement mode; it is read in value mode, and handed back, where none is waiting. -/
def Allows (r : Reader) : Request → Prop
  | .scan .statement => True
  | .scan .value | .handBack _ => r.waiting = none

def AllowsAll (r : Reader) : List Request → Prop
  | [] => True
  | q :: others => r.Allows q ∧ (r.serve q).AllowsAll others

def literals (r : Reader) : List Request → List String
  | [] => []
  | q :: others => (if q = .scan .value then (r.take .value).1.literals else []) ++ (r.serve q).literals others

/-- A token that is handed back is taken, as none is waiting, and the next request gives it and leaves the reader as it
was before. -/
structure GetsBack (r : Reader) (t : Token) (later : List Request) : Prop where
  free : r.waiting = none
  taken : r.handBack t = .ok (r.serve (.handBack t))
  asked : ∃ others, later = .scan .statement :: others
  read : (r.serve (.handBack t)).scan = (t, r)

section Requests

variable {r : Reader} {requests earlier later : List Request}

theorem allowsAll_append_iff :
    r.AllowsAll (earlier ++ later) ↔ r.AllowsAll earlier ∧ (r.after earlier).AllowsAll later := by
  induction earlier generalizing r with
  | nil => simp [AllowsAll, after]
  | cons q others ih =>
    simp only [List.cons_append, AllowsAll, ih, and_assoc]
    rfl

theorem literals_append : r.literals (earlier ++ later) = r.literals earlier ++ (r.after earlier).literals later := by
  induction earlier generalizing r with
  | nil => rfl
  | cons q others ih =>
    simp only [List.cons_append, literals, ih, List.append_assoc]
    rfl

theorem waiting_of_take {m : Mode} {t : Token} {r' : Reader} (read : r.take m = (t, r')) : r'.waiting = none := by
  rcases r with ⟨_ | w, cs⟩ <;> cases read <;> rfl

theorem AllowsAll.allows {q : Request} (allowed : r.AllowsAll requests) (split : requests = earlier ++ q :: later) :
    (r.after earlier).Allows q := by
  rw [split, allowsAll_append_iff] at allowed
  exact allowed.2.1

theorem getsBack_of_free {t : Token} (free : r.waiting = none) (asked : ∃ others, later = .scan .statement :: others) :
    r.GetsBack t later := by
  rcases r with ⟨_ | w, cs⟩
  · exact ⟨free, rfl, asked, rfl⟩
  · cases free

theorem AllowsAll.getsBack {t : Token} (allowed : r.AllowsAll requests)
    (split : requests = earlier ++ .handBack t :: later) (free : (r.after requests).waiting = none) :
    (r.after earlier).GetsBack t later := by
  have before := allowed.allows split
  rw [split, allowsAll_append_iff] at allowed
  rw [split, after_append] at free
  refine getsBack_of_free before ?_
  -- With nothing after it the token would be waiting in the end; no literal and no other token may come next.
  cases later with
  | nil => simp [after, serve] at free
  | cons q others =>
    rcases q with ⟨_ | _⟩ | _
    · exact ⟨others, rfl⟩
    · simp [AllowsAll, Allows, serve] at allowed
    · simp [AllowsAll, Allows, serve] at allowed

end Requests

section Outcomes

variable {α β : Type}

/-- The requests are allowed, and they end with a result, a reader and the literals read as stated, or with an expected
token that is missing, where no token is waiting. -/
structure Meets (r : Reader) (requests : List Request) (outcome : Except Error (α × Reader))
    (Q : α → Reader → List String → Prop) : Prop where
  allowed : r.AllowsAll requests
  gives : ∀ {a r'}, outcome = .ok (a, r') → Q a r' (r.literals requests)
  blames : ∀ {e}, outcome = .error e →
    (∃ found expected, e = .unexpected found expected) ∧ (r.after requests).waiting = none

variable {r mid : Reader} {earlier later : List Request} {outcome : Except Error (β × Reader)}
  {P : α → Reader → List String → Prop} {Q : β → Reader → List String → Prop}

theorem Meets.of_error {e : Error} (meets : r.Meets earlier (.error e : Except Error (α × Reader)) P) :
    r.Meets earlier (.error e) Q where
  allowed := meets.allowed
  gives := by
    intro b r' given
    cases given
  blames := by
    intro e' failed
    cases failed
    exact meets.blames rfl

theorem Meets.append {a : α} (meets : r.Meets earlier (.ok (a, mid)) P) (reached : r.after earlier = mid)
    (rest : ∀ vs, P a mid vs → mid.Meets later outcome fun b r' ws => Q b r' (vs ++ ws)) :
    r.Meets (earlier ++ later) outcome Q := by
  have second := rest _ (meets.gives rfl)
  constructor
  · rw [allowsAll_append_iff, reached]
    exact ⟨meets.allowed, second.allowed⟩
  · intro b r' given
    rw [literals_append, reached]
    exact second.gives given
  · intro e failed
    rw [after_append, reached]
    exact second.blames failed

theorem Meets.map {requests : List Request} {outcome : Except Error (α × Reader)} {f : α → β}
    (meets : r.Meets requests outcome P) (post : ∀ a r' vs, P a r' vs → Q (f a) r' vs) :
    r.Meets requests (outcome.map fun (a, r') => (f a, r')) Q where
  allowed := meets.allowed
  gives := by
    intro b r' given
    cases outcome with
    | error e => cases given
    | ok ar =>
      cases given
      exact post _ _ _ (meets.gives rfl)
  blames := by
    intro e failed
    cases outcome with
    | error e' =>
      cases failed
      exact meets.blames rfl
    | ok ar => cases failed

end Outcomes

end Reader

namespace Trace

variable {α β : Type} {r : Reader}

def Meets {p : Parser α} (trace : Trace p) (r : Reader) (Q : α → Reader → List String → Prop) : Prop :=
  r.Meets (trace.requests r) (p r) Q

section Rules

variable {p : Parser α} {trace : Trace p} {Q : α → Reader → List String → Prop}

theorem Meets.mono {Q' : α → Reader → List String → Prop} (meets : trace.Meets r Q)
    (weaker : ∀ a r' vs, Q a r' vs → Q' a r' vs) : trace.Meets r Q' where
  allowed := meets.allowed
  gives := fun run => weaker _ _ _ (meets.gives run)
  blames := meets.blames

theorem meets_pure {a : α} (post : Q a r []) : (pure a).Meets r Q where
  allowed := trivial
  gives := by
    intro b r' run
    obtain ⟨rfl, rfl⟩ := StateT.pure_eq_ok_iff.mp run
    exact post
  blames := by
    intro e run
    cases run

theorem meets_blame (free : r.waiting = none) (found : Token) (expected : String) :
    (blame found expected : Trace (Parser.blame found expected : Parser α)).Meets r Q where
  allowed := trivial
  gives := by
    intro a r' run
    cases run
  blames := by
    intro e run
    cases run
    exact ⟨⟨_, _, rfl⟩, free⟩

theorem Meets.bind {f : α → Parser β} {others : ∀ a, Trace (f a)} {Q : β → Reader → List String → Prop}
    (first : trace.Meets r fun a mid vs => (others a).Meets mid fun b r' ws => Q b r' (vs ++ ws)) :
    (trace.bind others).Meets r Q := by
  rw [Meets] at first ⊢
  cases run : p r with
  | error e =>
    rw [run] at first
    rw [requests_bind_of_error run, StateT.bind_eq_error_iff.mpr (.inl run)]
    exact first.of_error
  | ok am =>
    rcases am with ⟨a, mid⟩
    rw [run] at first
    rw [requests_bind_of_ok run, StateT.bind_of_ok f run]
    exact first.append (trace.reaches run) fun vs second => second

theorem meets_ite {c : Prop} [Decidable c] {q : Parser α} {other : Trace q} (yes : c → trace.Meets r Q)
    (no : ¬c → other.Meets r Q) : (trace.ite other : Trace (if c then p else q)).Meets r Q := by
  show r.Meets (if c then trace.requests r else other.requests r) ((if c then p else q) r) Q
  split
  · rename_i holds
    exact yes holds
  · rename_i fails
    exact no fails

theorem Meets.cast {q : Parser α} (same : q = p) (meets : trace.Meets r Q) : (trace.cast same).Meets r Q := by
  subst same
  exact meets

end Rules

section Reading

variable {Q : Token → Reader → List String → Prop}

theorem meets_scan (post : ∀ t r', r'.waiting = none → Q t r' []) : scan.Meets r Q where
  allowed := ⟨trivial, trivial⟩
  gives := by
    intro t r' run
    have read : r.take .statement = (t, r') := r.scan_eq_take ▸ Except.ok.inj run
    exact post t r' (Reader.waiting_of_take read)
  blames := by
    intro e run
    cases run

theorem meets_scanValue (free : r.waiting = none) (post : ∀ t r', r'.waiting = none → Q t r' t.literals) :
    scanValue.Meets r Q where
  allowed := ⟨free, trivial⟩
  gives := by
    intro t r' run
    have read := Reader.take_of_scanValue run
    have literals : r.literals (scanValue.requests r) = t.literals := by
      simp [scanValue, Reader.literals, read]
    rw [literals]
    exact post t r' (Reader.waiting_of_take read)
  blames := by
    intro e run
    simp [Parser.scanValue, Reader.scanValue, free] at run

theorem meets_next (post : ∀ t r', r'.waiting = none → Q t r' []) : next.Meets r Q := by
  refine .cast _ (meets_scan fun t r' free => ?_).bind
  cases t with
  | blank s => exact meets_scan post
  | _ => exact meets_pure (post _ r' free)

theorem meets_nextValue (free : r.waiting = none) (post : ∀ t r', r'.waiting = none → Q t r' t.literals) :
    nextValue.Meets r Q := by
  refine .cast _ (meets_scanValue free fun t r' free => ?_).bind
  cases t with
  | blank s => exact meets_scanValue free post
  | _ => exact meets_pure (post _ r' free)

end Reading

theorem meets_handBack {Q : Unit → Reader → List String → Prop} (free : r.waiting = none) (t : Token)
    (post : ∀ r', Q () r' []) : (handBack t).Meets r Q where
  allowed := ⟨free, trivial⟩
  gives := fun _ => post _
  blames := by
    intro e run
    simp [Parser.handBack, Reader.handBack, free, Except.map] at run

theorem meets_expect {Q : Unit → Reader → List String → Prop} (t : Token)
    (post : ∀ r', r'.waiting = none → Q () r' []) : (expect t).Meets r Q := by
  refine (meets_next fun found r' free => ?_).bind
  apply meets_ite
  · exact fun _ => meets_pure (post r' free)
  · exact fun _ => meets_blame free _ _

section Words

variable {Q : String → Reader → List String → Prop}

theorem meets_name (expected : String) (post : ∀ s r', r'.waiting = none → Q s r' []) :
    (name expected).Meets r Q := by
  refine (meets_next fun t r' free => ?_).bind
  cases t with
  | word s => exact meets_pure (post s r' free)
  | keyword k =>
    apply meets_ite
    · exact fun _ => meets_blame free _ _
    · exact fun _ => meets_pure (post _ r' free)
  | _ => exact meets_blame free _ _

theorem meets_typeName (post : ∀ s r', r'.waiting = none → Q s r' []) : typeName.Meets r Q := by
  refine (meets_next fun t r' free => ?_).bind
  cases t with
  | word s => exact meets_pure (post s r' free)
  | keyword k =>
    apply meets_ite
    · exact fun _ => meets_pure (post _ r' free)
    · exact fun _ => meets_blame free _ _
  | _ => exact meets_blame free _ _

theorem meets_literal (free : r.waiting = none) (post : ∀ s r', r'.waiting = none → Q s r' [s]) :
    literal.Meets r Q := by
  refine (meets_nextValue free fun t r' free => ?_).bind
  cases t with
  | value s => exact meets_pure (post s r' free)
  | _ => exact meets_blame free _ _

end Words

theorem meets_columnDefinition {Q : ColumnDefinition → Reader → List String → Prop}
    (post : ∀ c r', r'.waiting = none → Q c r' []) : columnDefinition.Meets r Q := by
  refine (meets_name _ fun n _ _ => ?_).bind
  refine (meets_typeName fun t r' free => ?_).bind
  exact meets_pure (post ⟨n, t⟩ r' free)

section Items

variable {item : Parser α} {each : Trace item} {bounded : Parser.Bounded item} {f : α → List String}

theorem Meets.item_and_token {a : α} {t : Token} {r₁ r₂ : Reader} {later : List Request}
    {outcome : Except Error (β × Reader)} {Q : β → Reader → List String → Prop}
    (first : each.Meets r fun a r' vs => r'.waiting = none ∧ vs = f a)
    (read : item r = .ok (a, r₁)) (token : r₁.next = (t, r₂))
    (rest : r₂.waiting = none → r₂.Meets later outcome fun b r' vs => Q b r' (f a ++ vs)) :
    r.Meets (each.requests r ++ (next.requests r₁ ++ later)) outcome Q := by
  rw [Meets, read] at first
  have second : r₁.Meets (next.requests r₁) (.ok r₁.next) fun _ r' vs => r'.waiting = none ∧ vs = [] :=
    meets_next fun _ _ free => ⟨free, rfl⟩
  rw [token] at second
  refine first.append (each.reaches read) fun vs item => ?_
  refine second.append (after_next token) fun us separator => ?_
  obtain ⟨-, rfl⟩ := item
  obtain ⟨free, rfl⟩ := separator
  exact rest free

theorem meets_items (meets : ∀ r, r.waiting = none → each.Meets r fun a r' vs => r'.waiting = none ∧ vs = f a)
    (free : r.waiting = none) :
    (each.items bounded).Meets r fun as r' vs => r'.waiting = none ∧ vs = as.flatMap f := by
  show r.Meets (each.itemsRequests bounded r) (Parser.items item bounded r) _
  -- Along the parser's own recursion: each round starts where no token is waiting, as the comma before it was read.
  fun_induction Parser.items item bounded r with
  | case1 r e failed =>
    have first := meets r free
    rw [Meets, failed] at first
    rw [itemsRequests_of_error failed]
    exact first.of_error
  | case2 r a r₁ read r₂ token =>
    rw [itemsRequests_last read (by simp [token]), ← List.append_nil (next.requests r₁)]
    refine (meets r free).item_and_token read token fun free => ?_
    exact meets_pure ⟨free, by simp⟩
  | case3 r a r₁ read r₂ token ih =>
    rw [itemsRequests_comma read token]
    refine (meets r free).item_and_token read token fun free => ?_
    refine (ih free).map fun as r' vs others => ?_
    obtain ⟨free, rfl⟩ := others
    exact ⟨free, rfl⟩
  | case4 r a r₁ read t r₂ _ notComma token =>
    rw [itemsRequests_last read (by simpa [token] using notComma), ← List.append_nil (next.requests r₁)]
    refine (meets r free).item_and_token read token fun free => ?_
    exact meets_blame free _ _

theorem meets_plainItems {Q : List α → Reader → List String → Prop} (free : r.waiting = none)
    (meets : ∀ r, r.waiting = none → each.Meets r fun _ r' vs => r'.waiting = none ∧ vs = [])
    (post : ∀ as r', r'.waiting = none → Q as r' []) : (each.items bounded).Meets r Q := by
  refine (meets_items meets free).mono fun as r' vs all => ?_
  obtain ⟨free, rfl⟩ := all
  have none : as.flatMap (fun _ => ([] : List String)) = [] := List.flatMap_eq_nil_iff.mpr fun _ _ => rfl
  rw [none]
  exact post as r' free

end Items

theorem meets_names {Q : List String → Reader → List String → Prop} (free : r.waiting = none)
    (post : ∀ ns r', r'.waiting = none → Q ns r' []) : names.Meets r Q :=
  meets_plainItems free (fun _ _ => meets_name _ fun _ _ free => ⟨free, rfl⟩) post

theorem meets_columnDefinitions {Q : List ColumnDefinition → Reader → List String → Prop} (free : r.waiting = none)
    (post : ∀ cs r', r'.waiting = none → Q cs r' []) : columnDefinitions.Meets r Q :=
  meets_plainItems free (fun _ _ => meets_columnDefinition fun _ _ free => ⟨free, rfl⟩) post

theorem meets_literals {Q : List String → Reader → List String → Prop} (free : r.waiting = none)
    (post : ∀ vs r', r'.waiting = none → Q vs r' vs) : literals.Meets r Q := by
  have all : literals.Meets r fun vs r' us => r'.waiting = none ∧ us = vs.flatMap fun s => [s] :=
    meets_items (fun _ free => meets_literal free fun _ _ free => ⟨free, rfl⟩) free
  refine all.mono fun vs r' us all => ?_
  obtain ⟨free, rfl⟩ := all
  simpa using post vs r' free

section Columns

variable {Q : Columns → Reader → List String → Prop}

theorem meets_insertColumns (post : ∀ c r', Q c r' []) : insertColumns.Meets r Q := by
  refine (meets_next fun t r' free => ?_).bind
  cases t with
  | keyword k =>
    cases k with
    | values =>
      refine (meets_handBack free _ fun r' => ?_).bind
      exact meets_pure (post _ r')
    | _ => exact meets_blame free _ _
  | opening =>
    refine (meets_names free fun ns r' free => ?_).bind
    exact meets_pure (post _ r')
  | _ => exact meets_blame free _ _

theorem meets_selectColumns (post : ∀ c r', r'.waiting = none → Q c r' []) : selectColumns.Meets r Q := by
  refine (meets_next fun t r' free => ?_).bind
  cases t with
  | asterisk => exact meets_pure (post _ r' free)
  | opening =>
    refine (meets_names free fun ns r' free => ?_).bind
    exact meets_pure (post _ r' free)
  | _ => exact meets_blame free _ _

end Columns

theorem meets_insert {Q : Insert → Reader → List String → Prop}
    (post : ∀ i r', r'.waiting = none → Q i r' i.values) : insert.Meets r Q := by
  refine (meets_expect _ fun _ _ => ?_).bind
  refine (meets_name _ fun table _ _ => ?_).bind
  refine (meets_insertColumns fun columns _ => ?_).bind
  refine (meets_expect _ fun _ _ => ?_).bind
  refine (meets_expect _ fun _ free => ?_).bind
  refine (meets_literals free fun values _ _ => ?_).bind
  refine (meets_expect _ fun r' free => ?_).bind
  refine meets_pure ?_
  simpa using post ⟨table, columns, values⟩ r' free

theorem meets_select {Q : Select → Reader → List String → Prop}
    (post : ∀ q r', r'.waiting = none → Q q r' []) : select.Meets r Q := by
  refine (meets_selectColumns fun columns _ _ => ?_).bind
  refine (meets_expect _ fun _ _ => ?_).bind
  refine (meets_name _ fun table _ _ => ?_).bind
  refine (meets_expect _ fun r' free => ?_).bind
  exact meets_pure (post ⟨table, columns⟩ r' free)

theorem meets_createTable {Q : CreateTable → Reader → List String → Prop}
    (post : ∀ c r', r'.waiting = none → Q c r' []) : createTable.Meets r Q := by
  refine (meets_expect _ fun _ _ => ?_).bind
  refine (meets_name _ fun table _ _ => ?_).bind
  refine (meets_expect _ fun _ free => ?_).bind
  refine (meets_columnDefinitions free fun columns _ _ => ?_).bind
  refine (meets_expect _ fun r' free => ?_).bind
  exact meets_pure (post ⟨table, columns⟩ r' free)

section Statements

variable {Q : Statement → Reader → List String → Prop}

theorem meets_statement (post : ∀ s r', r'.waiting = none → Q s r' s.literals) : statement.Meets r Q := by
  refine (meets_next fun t r' free => ?_).bind
  cases t with
  | keyword k =>
    cases k with
    | insert =>
      refine (meets_insert fun i r' free => ?_).bind
      refine meets_pure ?_
      simpa [Statement.literals] using post (.insert i) r' free
    | select =>
      refine (meets_select fun q r' free => ?_).bind
      exact meets_pure (post (.select q) r' free)
    | create =>
      refine (meets_createTable fun c r' free => ?_).bind
      exact meets_pure (post (.createTable c) r' free)
    | _ => exact meets_blame free _ _
  | _ => exact meets_blame free _ _

theorem meets_wholeStatement (post : ∀ s r', r'.waiting = none → Q s r' s.literals) : wholeStatement.Meets r Q := by
  refine (meets_statement fun s r' _ => ?_).bind
  refine (meets_next fun t r' free => ?_).bind
  cases t with
  | endOfText =>
    refine meets_pure ?_
    simpa using post s r' free
  | _ => exact meets_blame free _ _

end Statements

end Trace

def Statement.requests (sql : String) : List Request :=
  Trace.wholeStatement.requests (.ofText sql)

/-- Wherever a token is handed back while a text is read as a statement, none is waiting, and the next thing asked for is
a token, which gives the one that was handed back and leaves the reader as it was before. Wherever a literal is read, no
token is waiting; these literals are the values of the statement. A text that is no statement is refused for a token that
does not fit, never for a token that is waiting; in the end none is. -/
theorem Statement.waiting_token_is_read_next (sql : String) :
    (∀ earlier t later, requests sql = earlier ++ .handBack t :: later →
      ((Reader.ofText sql).after earlier).GetsBack t later) ∧
    (∀ earlier later, requests sql = earlier ++ .scan .value :: later →
      ((Reader.ofText sql).after earlier).waiting = none) ∧
    (∀ s, Statement.parse sql = .ok s → (Reader.ofText sql).literals (requests sql) = s.literals) ∧
    (∀ e, Statement.parse sql = .error e → ∃ found expected, e = .unexpected found expected) ∧
    ((Reader.ofText sql).after (requests sql)).waiting = none := by
  have meets := @Trace.meets_wholeStatement (.ofText sql) (fun s r vs => r.waiting = none ∧ vs = s.literals)
    fun _ _ free => ⟨free, rfl⟩
  obtain ⟨values, blamed, free⟩ :
      (∀ s, Statement.parse sql = .ok s → (Reader.ofText sql).literals (requests sql) = s.literals) ∧
      (∀ e, Statement.parse sql = .error e → ∃ found expected, e = .unexpected found expected) ∧
      ((Reader.ofText sql).after (requests sql)).waiting = none := by
    have parsed : Statement.parse sql = (Parser.wholeStatement (.ofText sql)).map (·.1) := rfl
    rw [parsed]
    cases run : Parser.wholeStatement (.ofText sql) with
    | ok sr =>
      obtain ⟨free, values⟩ := meets.gives run
      rw [← Trace.wholeStatement.reaches run] at free
      refine ⟨fun s ok => ?_, fun e failed => ?_, free⟩
      · cases ok
        exact values
      · cases failed
    | error e =>
      obtain ⟨blamed, free⟩ := meets.blames run
      refine ⟨fun s ok => ?_, fun e' failed => ?_, free⟩
      · cases ok
      · cases failed
        exact blamed
  refine ⟨?_, ?_, values, blamed, free⟩
  · intro earlier t later split
    exact meets.allowed.getsBack split free
  · intro earlier later split
    exact meets.allowed.allows split

example : Statement.requests "INSERT INTO t VALUES ( 1" =
    List.replicate 7 (.scan .statement) ++ [.handBack (.keyword .values)] ++ List.replicate 3 (.scan .statement) ++
      [.scan .value, .scan .value, .scan .statement] := by
  cbv

end RowBase.Sql
