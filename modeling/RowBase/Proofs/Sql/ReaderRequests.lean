import RowBase.Proofs.Sql.Parsing

namespace RowBase.Sql

inductive Request
  | scan (m : Mode)
  | handBack (t : Token)
  deriving DecidableEq, Repr

namespace Reader

def take (m : Mode) (r : Reader) : Token × Reader :=
  match r.waiting with
  | some t => (t, ⟨none, r.rest⟩)
  | none => ((Token.scanIn m r.rest).1, ⟨none, (Token.scanIn m r.rest).2⟩)

/-- The reader after a request. Nothing is checked: a waiting token is lost where another one is handed back. -/
def serve (r : Reader) : Request → Reader
  | .scan m => (r.take m).2
  | .handBack t => ⟨some t, r.rest⟩

def after (r : Reader) (requests : List Request) : Reader :=
  requests.foldl serve r

theorem after_append (r : Reader) (earlier later : List Request) :
    r.after (earlier ++ later) = (r.after earlier).after later :=
  List.foldl_append

theorem scan_eq_take (r : Reader) : r.scan = r.take .statement := by
  rcases r with ⟨_ | t, cs⟩ <;> rfl

theorem take_of_scanValue {r r' : Reader} {t : Token} (read : r.scanValue = .ok (t, r')) :
    r.take .value = (t, r') := by
  rcases r with ⟨_ | w, cs⟩ <;> cases read
  rfl

theorem serve_of_handBack {r r' : Reader} {t : Token} (handed : r.handBack t = .ok r') :
    r.serve (.handBack t) = r' := by
  rcases r with ⟨_ | w, cs⟩ <;> cases handed
  rfl

end Reader

namespace Parser

def scan : Parser Token :=
  fun r => .ok r.scan

def scanValue : Parser Token :=
  fun r => r.scanValue

theorem next_eq : next = scan >>= fun
    | .blank _ => scan
    | t => pure t := by
  funext r
  rcases read : r.scan with ⟨t, mid⟩
  have first : scan r = .ok (t, mid) := congrArg Except.ok read
  refine .trans ?_ (StateT.bind_of_ok _ first).symm
  rw [next, Reader.next, read]
  cases t <;> rfl

theorem nextValue_eq : nextValue = scanValue >>= fun
    | .blank _ => scanValue
    | t => pure t := by
  funext r
  show r.scanValue >>= _ = (scanValue >>= _) r
  cases read : r.scanValue with
  | error e => exact (StateT.bind_eq_error_iff.mpr (.inl read)).symm
  | ok tr =>
    rcases tr with ⟨t, mid⟩
    refine .trans ?_ (StateT.bind_of_ok _ read).symm
    cases t <;> rfl

end Parser

/-- The requests that a parser makes of its reader, up to the one at which it fails. -/
structure Trace {α : Type} (p : Parser α) where
  requests : Reader → List Request
  reaches : ∀ {r a r'}, p r = .ok (a, r') → r.after (requests r) = r'

namespace Trace

variable {α β : Type}

def pure (a : α) : Trace (Pure.pure a : Parser α) where
  requests := fun _ => []
  reaches := by
    intro r b r' run
    rw [(StateT.pure_eq_ok_iff.mp run).2]
    rfl

def blame (found : Token) (expected : String) : Trace (Parser.blame found expected : Parser α) where
  requests := fun _ => []
  reaches := by
    intro r a r' run
    exact absurd run Grammar.blame_ne_ok

def bind {p : Parser α} {f : α → Parser β} (first : Trace p) (second : ∀ a, Trace (f a)) : Trace (p >>= f) where
  requests := fun r => first.requests r ++ match p r with
    | .ok (a, mid) => (second a).requests mid
    | .error _ => []
  reaches := by
    intro r b r' run
    obtain ⟨a, mid, read, run⟩ := StateT.bind_eq_ok_iff.mp run
    simp only [read, Reader.after_append, first.reaches read, (second a).reaches run]

section Bind

variable {p : Parser α} {first : Trace p} {f : α → Parser β} {second : ∀ a, Trace (f a)} {r mid : Reader}

theorem requests_bind_of_ok {a : α} (read : p r = .ok (a, mid)) :
    (first.bind second).requests r = first.requests r ++ (second a).requests mid := by
  simp only [bind, read]

theorem requests_bind_of_error {e : Error} (failed : p r = .error e) :
    (first.bind second).requests r = first.requests r := by
  simp only [bind, failed, List.append_nil]

end Bind

def ite {c : Prop} [Decidable c] {p q : Parser α} (yes : Trace p) (no : Trace q) : Trace (if c then p else q) where
  requests := fun r => if c then yes.requests r else no.requests r
  reaches := by
    intro r a r' run
    split at run
    · rename_i holds
      rw [if_pos holds, yes.reaches run]
    · rename_i fails
      rw [if_neg fails, no.reaches run]

def cast {p q : Parser α} (same : q = p) (trace : Trace p) : Trace q where
  requests := trace.requests
  reaches := same ▸ trace.reaches

def scan : Trace Parser.scan where
  requests := fun _ => [.scan .statement]
  reaches := by
    intro r t r' run
    have read : r.scan = (t, r') := Except.ok.inj run
    rw [r.scan_eq_take] at read
    exact congrArg Prod.snd read

def scanValue : Trace Parser.scanValue where
  requests := fun _ => [.scan .value]
  reaches := fun run => congrArg Prod.snd (Reader.take_of_scanValue run)

def handBack (t : Token) : Trace (Parser.handBack t) where
  requests := fun _ => [.handBack t]
  reaches := by
    intro r a r' run
    cases handed : r.handBack t with
    | error e => simp [Parser.handBack, handed, Except.map] at run
    | ok mid =>
      simp only [Parser.handBack, handed, Except.map, Except.ok.injEq, Prod.mk.injEq] at run
      exact (Reader.serve_of_handBack handed).trans run.2

def next : Trace Parser.next :=
  cast Parser.next_eq (scan.bind fun t => by
    cases t with
    | blank s => exact scan
    | _ => exact .pure _)

def nextValue : Trace Parser.nextValue :=
  cast Parser.nextValue_eq (scanValue.bind fun t => by
    cases t with
    | blank s => exact scanValue
    | _ => exact .pure _)

def expect (t : Token) : Trace (Parser.expect t) :=
  next.bind fun found => .ite (.pure ()) (.blame found t.text)

def name (expected : String) : Trace (Parser.name expected) :=
  next.bind fun t => by
    cases t with
    | word s => exact .pure s
    | keyword k => exact .ite (.blame _ _) (.pure _)
    | _ => exact .blame _ _

def typeName : Trace Parser.typeName :=
  next.bind fun t => by
    cases t with
    | word s => exact .pure s
    | keyword k => exact .ite (.pure _) (.blame _ _)
    | _ => exact .blame _ _

def columnDefinition : Trace Parser.columnDefinition :=
  (name _).bind fun _ => typeName.bind fun _ => .pure _

def literal : Trace Parser.literal :=
  nextValue.bind fun t => by
    cases t with
    | value s => exact .pure s
    | _ => exact .blame _ _

section Items

variable {item : Parser α}

set_option linter.unusedVariables false in
def itemsRequests (each : Trace item) (bounded : Parser.Bounded item) (r : Reader) : List Request :=
  each.requests r ++ match h₁ : item r with
    | .error _ => []
    | .ok (_, r₁) => next.requests r₁ ++ match h₂ : r₁.next with
      | (.comma, r₂) => itemsRequests each bounded r₂
      | _ => []
termination_by r.size
decreasing_by
  have first := bounded r _ r₁ h₁
  have second := Reader.size_next_lt (r := r₁) (by rw [h₂]; simp)
  rw [h₂] at second
  exact Nat.lt_of_lt_of_le second first

variable {each : Trace item} {bounded : Parser.Bounded item} {r r₁ r₂ : Reader} {a : α}

theorem itemsRequests_of_error {e : Error} (failed : item r = .error e) :
    itemsRequests each bounded r = each.requests r := by
  rw [itemsRequests]
  split
  · exact List.append_nil _
  · simp_all

theorem itemsRequests_last (read : item r = .ok (a, r₁)) (last : r₁.next.1 ≠ .comma) :
    itemsRequests each bounded r = each.requests r ++ next.requests r₁ := by
  rw [itemsRequests]
  split
  · simp_all
  · split <;> simp_all

theorem itemsRequests_comma (read : item r = .ok (a, r₁)) (token : r₁.next = (.comma, r₂)) :
    itemsRequests each bounded r = each.requests r ++ (next.requests r₁ ++ itemsRequests each bounded r₂) := by
  rw [itemsRequests]
  split
  · simp_all
  · split <;> simp_all

theorem after_next {t : Token} (token : r₁.next = (t, r₂)) : r₁.after (next.requests r₁) = r₂ :=
  next.reaches (congrArg Except.ok token)

def items (each : Trace item) (bounded : Parser.Bounded item) : Trace (Parser.items item bounded) where
  requests := itemsRequests each bounded
  reaches := by
    intro r as r' run
    fun_induction Parser.items item bounded r generalizing as r' with
    | case1 => cases run
    | case2 r a r₁ read r₂ token =>
      cases run
      rw [itemsRequests_last read (by simp [token]), Reader.after_append, each.reaches read, after_next token]
    | case3 r a r₁ read r₂ token ih =>
      cases others : Parser.items item bounded r₂ with
      | error e => simp [others, Except.map] at run
      | ok rest =>
        simp only [others, Except.map, Except.ok.injEq, Prod.mk.injEq] at run
        rw [itemsRequests_comma read token, Reader.after_append, each.reaches read, Reader.after_append,
          after_next token, ih others, run.2]
    | case4 => cases run

end Items

def names : Trace Parser.names :=
  (name _).items _

def literals : Trace Parser.literals :=
  literal.items _

def columnDefinitions : Trace Parser.columnDefinitions :=
  columnDefinition.items _

def insertColumns : Trace Parser.insertColumns :=
  next.bind fun t => by
    cases t with
    | keyword k =>
      cases k with
      | values => exact (handBack _).bind fun _ => .pure _
      | _ => exact .blame _ _
    | opening => exact names.bind fun _ => .pure _
    | _ => exact .blame _ _

def selectColumns : Trace Parser.selectColumns :=
  next.bind fun t => by
    cases t with
    | asterisk => exact .pure _
    | opening => exact names.bind fun _ => .pure _
    | _ => exact .blame _ _

def insert : Trace Parser.insert :=
  (expect _).bind fun _ => (name _).bind fun _ => insertColumns.bind fun _ => (expect _).bind fun _ =>
    (expect _).bind fun _ => literals.bind fun _ => (expect _).bind fun _ => .pure _

def select : Trace Parser.select :=
  selectColumns.bind fun _ => (expect _).bind fun _ => (name _).bind fun _ => (expect _).bind fun _ => .pure _

def createTable : Trace Parser.createTable :=
  (expect _).bind fun _ => (name _).bind fun _ => (expect _).bind fun _ => columnDefinitions.bind fun _ =>
    (expect _).bind fun _ => .pure _

def statement : Trace Parser.statement :=
  next.bind fun t => by
    cases t with
    | keyword k =>
      cases k with
      | insert => exact insert.bind fun _ => .pure _
      | select => exact select.bind fun _ => .pure _
      | create => exact createTable.bind fun _ => .pure _
      | _ => exact .blame _ _
    | _ => exact .blame _ _

def wholeStatement : Trace Parser.wholeStatement :=
  statement.bind fun _ => next.bind fun t => by
    cases t with
    | endOfText => exact .pure _
    | _ => exact .blame _ _

end Trace

end RowBase.Sql
