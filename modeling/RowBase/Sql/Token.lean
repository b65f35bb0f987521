import RowBase.Sql.Keyword

namespace RowBase.Sql

inductive Token
  | keyword (k : Keyword)
  | word (s : String)
  | value (s : String)
  | blank (s : String)
  | asterisk
  | comma
  | opening
  | closing
  | singleQuote
  | doubleQuote
  | semicolon
  | illegal (s : String)
  | endOfText
  deriving DecidableEq, Repr

inductive Mode
  | statement
  | value
  deriving DecidableEq, Repr

/-- Space, tab, line feed and carriage return separate tokens; no other character does. -/
def isSeparator (c : Char) : Bool :=
  c == ' ' || c == '\t' || c == '\n' || c == '\r'

def startsWord (c : Char) : Bool :=
  c.isAlpha

def continuesWord (c : Char) : Bool :=
  c.isAlphanum || c == '_'

def endsLiteral (c : Char) : Bool :=
  c == ',' || c == ';' || c == ')' || isSeparator c

namespace Token

/-- The text of a token in messages: a keyword in capitals, a value without its quotes. -/
def text : Token → String
  | keyword k => k.name
  | word s | value s | blank s | illegal s => s
  | asterisk => "*"
  | comma => ","
  | opening => "("
  | closing => ")"
  | singleQuote => "'"
  | doubleQuote => "\""
  | semicolon => ";"
  | endOfText => ""

def ofWord (s : String) : Token :=
  match Keyword.ofName? s with
  | some k => keyword k
  | none => word s

def ofSymbol (c : Char) : Token :=
  match c with
  | '*' => asterisk
  | ',' => comma
  | '(' => opening
  | ')' => closing
  | '\'' => singleQuote
  | '"' => doubleQuote
  | ';' => semicolon
  | c => illegal c.toString

def span (p : Char → Bool) (cs : List Char) : String × List Char :=
  (.ofList (cs.takeWhile p), cs.dropWhile p)

/-- Reads the inside of a quoted literal: a doubled quote stands for one quote, a single one ends the
literal. Gives the text and the rest after the closing quote, or the text alone if that quote is missing. -/
def quotedText : List Char → List Char × Option (List Char)
  | [] => ([], none)
  | '\'' :: '\'' :: rest => (quotedText rest).map ('\'' :: ·) id
  | c :: rest => if c = '\'' then ([], some rest) else (quotedText rest).map (c :: ·) id

def quotedLiteral (rest : List Char) : Token × List Char :=
  match quotedText rest with
  | (s, some after) => (value (.ofList s), after)
  | (s, none) => (illegal (.ofList ('\'' :: s)), [])

def scan : List Char → Token × List Char
  | [] => (endOfText, [])
  | c :: rest =>
    if isSeparator c then (span isSeparator (c :: rest)).map blank id
    else if startsWord c then (span continuesWord (c :: rest)).map ofWord id
    else (ofSymbol c, rest)

def scanValue : List Char → Token × List Char
  | [] => (endOfText, [])
  | c :: rest =>
    if isSeparator c then (span isSeparator (c :: rest)).map blank id
    else if c = ',' ∨ c = ';' ∨ c = ')' then (ofSymbol c, rest)
    else if c = '\'' then quotedLiteral rest
    else (span (!endsLiteral ·) (c :: rest)).map value id

def scanIn : Mode → List Char → Token × List Char
  | .statement => scan
  | .value => scanValue

theorem length_span_lt {p : Char → Bool} {c : Char} (h : p c = true) (rest : List Char) :
    (span p (c :: rest)).2.length < (c :: rest).length := by
  have := (List.dropWhile_sublist (l := rest) p).length_le
  simp only [span, List.dropWhile_cons, h, if_true, List.length_cons]
  omega

theorem length_quotedText {cs s after : List Char} (h : quotedText cs = (s, some after)) :
    after.length < cs.length := by
  fun_induction quotedText cs generalizing s with
  | case1 => simp at h
  | case2 rest ih =>
    rcases hq : quotedText rest with ⟨s', t⟩
    simp only [hq, Prod.map, id_eq, Prod.mk.injEq] at h ih
    have := ih ⟨rfl, h.2⟩
    simp only [List.length_cons]
    omega
  | case3 rest _ =>
    simp only [Prod.mk.injEq, Option.some.injEq] at h
    simp [← h.2]
  | case4 c rest _ hc ih =>
    rcases hq : quotedText rest with ⟨s', t⟩
    simp only [hq, Prod.map, id_eq, Prod.mk.injEq] at h ih
    have := ih ⟨rfl, h.2⟩
    simp only [List.length_cons]
    omega

theorem length_quotedLiteral (rest : List Char) : (quotedLiteral rest).2.length ≤ rest.length := by
  simp only [quotedLiteral]
  split
  · rename_i h
    exact Nat.le_of_lt (length_quotedText h)
  · simp

theorem length_scan_lt (c : Char) (rest : List Char) : (scan (c :: rest)).2.length < (c :: rest).length := by
  simp only [scan]
  split
  · rename_i h
    exact length_span_lt h rest
  · split
    · rename_i h
      exact length_span_lt (by simp [continuesWord, Char.isAlphanum, show c.isAlpha = true from h]) rest
    · simp

theorem length_scanValue_lt (c : Char) (rest : List Char) :
    (scanValue (c :: rest)).2.length < (c :: rest).length := by
  have quoted := length_quotedLiteral rest
  simp only [scanValue]
  split
  · rename_i h
    exact length_span_lt h rest
  · split
    · simp
    · split
      · simp only [List.length_cons]
        omega
      · rename_i h₁ h₂ _
        refine length_span_lt ?_ rest
        simp only [not_or] at h₂
        simp [endsLiteral, h₁, h₂]

theorem length_scanIn_lt (m : Mode) (c : Char) (rest : List Char) :
    (scanIn m (c :: rest)).2.length < (c :: rest).length := by
  cases m
  · exact length_scan_lt c rest
  · exact length_scanValue_lt c rest

def next (cs : List Char) : Option Token × List Char :=
  match scan cs with
  | (endOfText, rest) => (none, rest)
  | (t, rest) => (some t, rest)

theorem next_nil : next [] = (none, []) := rfl

theorem next_eq_some {cs rest : List Char} {t : Token} (h : next cs = (some t, rest)) :
    scan cs = (t, rest) ∧ rest.length < cs.length := by
  cases cs with
  | nil => simp [next_nil] at h
  | cons c cs =>
    have shorter := length_scan_lt c cs
    unfold next at h
    split at h
    · simp at h
    · rename_i s r found
      simp only [Prod.mk.injEq, Option.some.injEq] at h
      rw [h.1, h.2] at found
      rw [found] at shorter
      exact ⟨found, shorter⟩

set_option linter.unusedVariables false in
def tokens (cs : List Char) : List Token :=
  match h : next cs with
  | (none, _) => []
  | (some t, rest) => t :: tokens rest
termination_by cs.length
decreasing_by exact (next_eq_some h).2

/-- The tokens of a text up to and including the end, where the mode of each scan hangs on how many tokens
came before it; `i` of them came before the first. -/
def streamFrom (mode : Nat → Mode) (i : Nat) : List Char → List Token
  | [] => [endOfText]
  | c :: rest =>
    match h : scanIn (mode i) (c :: rest) with
    | (t, after) => t :: streamFrom mode (i + 1) after
termination_by cs => cs.length
decreasing_by
  have := length_scanIn_lt (mode i) c rest
  rwa [h] at this

def stream (mode : Nat → Mode) (cs : List Char) : List Token :=
  streamFrom mode 0 cs

end Token

end RowBase.Sql
