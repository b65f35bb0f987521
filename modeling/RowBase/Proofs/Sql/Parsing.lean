import Mathlib
import RowBase.Proofs.Reading
import RowBase.Proofs.Sql.Scanning
import RowBase.Sql.Parser

namespace RowBase.Sql.Grammar

theorem text_ofSymbol (c : Char) : (Token.ofSymbol c).text = c.toString := by
  unfold Token.ofSymbol
  split <;> rfl

theorem ofSymbol_inj {c d : Char} (h : Token.ofSymbol c = Token.ofSymbol d) : c = d := by
  have same : c.toString = d.toString := by rw [← text_ofSymbol, h, text_ofSymbol]
  simpa [Char.toString] using same

theorem ofSymbol_ne_keyword (c : Char) (k : Keyword) : Token.ofSymbol c ≠ .keyword k := by
  unfold Token.ofSymbol
  split <;> simp

theorem ofSymbol_ne_word (c : Char) (s : String) : Token.ofSymbol c ≠ .word s := by
  unfold Token.ofSymbol
  split <;> simp

theorem scans_keyword_iff {k : Keyword} {w rest : List Char} :
    Scans (.keyword k) w rest ↔ Spells EndsPlain (.keyword k) w rest := by
  constructor
  · intro h
    generalize token : Token.keyword k = t at h
    cases h with
    | keyword spelled stops =>
      cases token
      exact .keyword spelled stops
    | word => simp at token
    | symbol => exact absurd token.symm (ofSymbol_ne_keyword _ k)
  · intro h
    cases h
    exact .keyword ‹_› ‹_›

theorem scans_word_iff {s : String} {w rest : List Char} :
    Scans (.word s) w rest ↔
      s = .ofList w ∧ IsWord w ∧ (∀ k, ¬IsKeyword k w) ∧ Stops IsWordChar rest := by
  constructor
  · intro h
    generalize token : Token.word s = t at h
    cases h with
    | keyword => simp at token
    | word word plain stops =>
      cases token
      exact ⟨rfl, word, plain, stops⟩
    | symbol => exact absurd token.symm (ofSymbol_ne_word _ s)
  · intro h
    rcases h with ⟨rfl, word, plain, stops⟩
    exact .word word plain stops

theorem scans_symbol_iff {c : Char} (other : c ∉ blanks) (alone : ¬IsLetter c) {w rest : List Char} :
    Scans (.ofSymbol c) w rest ↔ Spells EndsPlain (.symbol c) w rest := by
  constructor
  · intro h
    generalize token : Token.ofSymbol c = t at h
    cases h with
    | keyword => exact absurd token (ofSymbol_ne_keyword c _)
    | word => exact absurd token (ofSymbol_ne_word c _)
    | symbol =>
      cases ofSymbol_inj token
      exact .symbol
  · intro h
    cases h
    exact .symbol other alone

def Shows (t : Token) (l : Lexeme) : Prop :=
  t ≠ .endOfText ∧ ∀ w rest, Scans t w rest ↔ Spells EndsPlain l w rest

theorem shows_keyword (k : Keyword) : Shows (.keyword k) (.keyword k) :=
  ⟨by simp, fun _ _ => scans_keyword_iff⟩

theorem shows_symbol (c : Char) (other : c ∉ blanks) (alone : ¬IsLetter c) :
    Shows (.ofSymbol c) (.symbol c) := by
  refine ⟨?_, fun _ _ => scans_symbol_iff other alone⟩
  unfold Token.ofSymbol
  split <;> simp

theorem shows_asterisk : Shows .asterisk (.symbol '*') :=
  shows_symbol '*' (by decide) (by decide)

theorem shows_comma : Shows .comma (.symbol ',') :=
  shows_symbol ',' (by decide) (by decide)

theorem shows_opening : Shows .opening (.symbol '(') :=
  shows_symbol '(' (by decide) (by decide)

theorem shows_closing : Shows .closing (.symbol ')') :=
  shows_symbol ')' (by decide) (by decide)

theorem shows_semicolon : Shows .semicolon (.symbol ';') :=
  shows_symbol ';' (by decide) (by decide)

theorem Shows.next_iff {t : Token} {l : Lexeme} (shows : Shows t l) {cs rest : List Char} :
    Reader.next ⟨none, cs⟩ = (t, ⟨none, rest⟩) ↔ Opens EndsPlain [l] cs rest := by
  rw [next_eq_iff shows.1, opens_singleton_iff]
  simp only [shows.2]

theorem Shows.opens_of_next {t : Token} {l : Lexeme} (shows : Shows t l) {cs : List Char} {r : Reader}
    (token : Reader.next ⟨none, cs⟩ = (t, r)) : ∃ rest, r = ⟨none, rest⟩ ∧ Opens EndsPlain [l] cs rest := by
  have form := token
  rw [next_eq] at form
  cases form
  exact ⟨_, rfl, shows.next_iff.mp token⟩

/-- A parser reads exactly the texts that start with the lexemes of its result. -/
def Reads {α : Type} (p : Parser α) (R : α → List Lexeme → Prop) : Prop :=
  ∀ cs a r, p ⟨none, cs⟩ = .ok (a, r) ↔
    ∃ ls rest, r = ⟨none, rest⟩ ∧ R a ls ∧ Opens EndsPlain ls cs rest

section Combinators

variable {α β : Type}

theorem Reads.congr {p : Parser α} {R S : α → List Lexeme → Prop} (reads : Reads p R)
    (same : ∀ a ls, R a ls ↔ S a ls) : Reads p S := by
  intro cs a r
  rw [reads]
  simp only [same]

theorem reads_pure (a : α) : Reads (pure a) fun b ls => b = a ∧ ls = [] := by
  intro cs b r
  constructor
  · intro h
    have h : Except.ok (a, (⟨none, cs⟩ : Reader)) = Except.ok (b, r) := h
    cases h
    exact ⟨[], cs, rfl, ⟨rfl, rfl⟩, .nil⟩
  · intro h
    rcases h with ⟨ls, rest, rfl, ⟨rfl, rfl⟩, opens⟩
    cases opens
    rfl

theorem Reads.bind {p : Parser α} {f : α → Parser β} {R : α → List Lexeme → Prop}
    {S : α → β → List Lexeme → Prop} (first : Reads p R) (second : ∀ a, Reads (f a) (S a)) :
    Reads (p >>= f) fun b ls => ∃ a ks ms, R a ks ∧ S a b ms ∧ ls = ks ++ ms := by
  intro cs b r
  rw [StateT.bind_eq_ok_iff]
  constructor
  · intro h
    rcases h with ⟨a, mid, run, run'⟩
    obtain ⟨ks, middle, rfl, result, opens⟩ := (first cs a mid).mp run
    obtain ⟨ms, rest, rfl, result', opens'⟩ := (second a middle b r).mp run'
    exact ⟨_, rest, rfl, ⟨a, ks, ms, result, result', rfl⟩, opens.append opens'⟩
  · intro h
    rcases h with ⟨ls, rest, rfl, ⟨a, ks, ms, result, result', rfl⟩, opens⟩
    obtain ⟨middle, opens, opens'⟩ := opens_append_iff.mp opens
    exact ⟨a, ⟨none, middle⟩, (first _ _ _).mpr ⟨ks, middle, rfl, result, opens⟩,
      (second _ _ _ _).mpr ⟨ms, rest, rfl, result', opens'⟩⟩

theorem next_bind_eq_ok_iff {f : Token → Parser α} {cs : List Char} {a : α} {r : Reader} :
    (Parser.next >>= f) ⟨none, cs⟩ = .ok (a, r) ↔
      ∃ t mid, Reader.next ⟨none, cs⟩ = (t, ⟨none, mid⟩) ∧ f t ⟨none, mid⟩ = .ok (a, r) := by
  rw [StateT.bind_eq_ok_iff]
  simp only [Parser.next, next_eq, Except.ok.injEq]
  constructor
  · intro h
    rcases h with ⟨t, mid, token, run⟩
    cases token
    exact ⟨_, _, rfl, run⟩
  · intro h
    rcases h with ⟨t, mid, token, run⟩
    cases token
    exact ⟨_, _, rfl, run⟩

theorem blame_ne_ok {t : Token} {s : String} {r r' : Reader} {a : α} :
    (Parser.blame t s : Parser α) r ≠ .ok (a, r') := by
  simp [Parser.blame]

end Combinators

theorem reads_expect {t : Token} {l : Lexeme} (shows : Shows t l) :
    Reads (Parser.expect t) fun _ ls => ls = [l] := by
  intro cs a r
  rw [Parser.expect, next_bind_eq_ok_iff]
  constructor
  · intro h
    rcases h with ⟨found, rest, token, run⟩
    split at run
    · rename_i same
      subst same
      rw [(StateT.pure_eq_ok_iff.mp run).2]
      exact ⟨_, rest, rfl, rfl, shows.next_iff.mp token⟩
    · exact absurd run blame_ne_ok
  · intro h
    rcases h with ⟨ls, rest, rfl, rfl, opens⟩
    exact ⟨t, rest, shows.next_iff.mpr opens, by rw [if_pos rfl]; rfl⟩

section Steps

variable {α : Type} {R : α → List Lexeme → Prop}

theorem reads_expect_bind {t : Token} {l : Lexeme} (shows : Shows t l) {p : Parser α} (reads : Reads p R) :
    Reads (Parser.expect t >>= fun _ => p) fun a ls => ∃ ms, R a ms ∧ ls = l :: ms := by
  refine ((reads_expect shows).bind fun _ => reads).congr fun a ls => ?_
  simp

theorem reads_expect_pure {t : Token} {l : Lexeme} (shows : Shows t l) (a : α) :
    Reads (Parser.expect t >>= fun _ => pure a) fun b ls => b = a ∧ ls = [l] := by
  refine (reads_expect_bind shows (reads_pure a)).congr fun b ls => ?_
  simp

end Steps

theorem asName_eq {k : Keyword} {w : List Char} (spelled : IsKeyword k w) :
    k.asName = .ofList (w.map Char.toLower) := by
  rw [Keyword.asName, ← spelled, List.map_map]
  congr 2
  funext c
  -- Mathlib has this lemma by way of its root module only, which is why that is imported here.
  exact c.toLower_toUpper_eq_toLower

theorem name_eq {k : Keyword} {w : List Char} (spelled : IsKeyword k w) :
    k.name = .ofList (w.map Char.toUpper) := by
  rw [spelled, String.ofList_toList]

theorem reads_word {f : Token → Parser String} {l : String → Lexeme} (allowed : Keyword → Prop)
    (shown : Keyword → String) (word : ∀ s, f (.word s) = pure s)
    (keyword : ∀ k r s r', f (.keyword k) r = .ok (s, r') ↔ allowed k ∧ s = shown k ∧ r' = r)
    (other : ∀ t r s r', f t r = .ok (s, r') → (∃ s, t = .word s) ∨ ∃ k, t = .keyword k)
    (spells : ∀ s w rest, Spells EndsPlain (l s) w rest ↔
      Stops IsWordChar rest ∧ (s = .ofList w ∧ IsWord w ∧ (∀ k, ¬IsKeyword k w) ∨
        ∃ k, allowed k ∧ IsKeyword k w ∧ s = shown k)) :
    Reads (Parser.next >>= f) fun s ls => ls = [l s] := by
  intro cs s r
  rw [next_bind_eq_ok_iff]
  constructor
  · intro h
    rcases h with ⟨t, rest, token, run⟩
    obtain ⟨v, rfl⟩ | ⟨k, rfl⟩ := other _ _ _ _ run
    · rw [word] at run
      obtain ⟨rfl, rfl⟩ := StateT.pure_eq_ok_iff.mp run
      obtain ⟨gap, w, split, blank, spelled⟩ := (next_eq_iff (by simp)).mp token
      obtain ⟨rfl, word, plain, stops⟩ := scans_word_iff.mp spelled
      have spelled := (spells _ w rest).mpr ⟨stops, .inl ⟨rfl, word, plain⟩⟩
      exact ⟨_, rest, rfl, rfl, opens_singleton_iff.mpr ⟨gap, w, split, blank, spelled⟩⟩
    · obtain ⟨allowed, rfl, rfl⟩ := (keyword _ _ _ _).mp run
      obtain ⟨gap, w, split, blank, spelled⟩ := (next_eq_iff (by simp)).mp token
      cases scans_keyword_iff.mp spelled with
      | keyword spelled stops =>
        have spelled := (spells _ w rest).mpr ⟨stops, .inr ⟨k, allowed, spelled, rfl⟩⟩
        exact ⟨_, rest, rfl, rfl, opens_singleton_iff.mpr ⟨gap, w, split, blank, spelled⟩⟩
  · intro h
    rcases h with ⟨ls, rest, rfl, rfl, opens⟩
    obtain ⟨gap, w, split, blank, spelled⟩ := opens_singleton_iff.mp opens
    obtain ⟨stops, ⟨rfl, plainWord, plain⟩ | ⟨k, allowed, letters, rfl⟩⟩ := (spells _ _ _).mp spelled
    · have token := (next_eq_iff (by simp)).mpr ⟨gap, w, split, blank, .word plainWord plain stops⟩
      exact ⟨_, rest, token, by rw [word]; rfl⟩
    · have token := (next_eq_iff (by simp)).mpr ⟨gap, w, split, blank, .keyword letters stops⟩
      exact ⟨_, rest, token, (keyword _ _ _ _).mpr ⟨allowed, rfl, rfl⟩⟩

theorem reads_name (expected : String) : Reads (Parser.name expected) fun s ls => ls = [.name s] := by
  apply reads_word (fun k => k.isReserved = false) Keyword.asName (fun _ => rfl)
  · intro k r s r'
    dsimp only
    split
    · rename_i reserved
      simp [blame_ne_ok, reserved]
    · rename_i free
      simp [StateT.pure_eq_ok_iff, free]
  · intro t r s r' run
    split at run
    · exact .inl ⟨_, rfl⟩
    · exact .inr ⟨_, rfl⟩
    · exact absurd run blame_ne_ok
  · intro s w rest
    constructor
    · intro h
      rcases h with _ | ⟨word, plain, stops⟩ | ⟨free, spelled, stops⟩
      · exact ⟨stops, .inl ⟨rfl, word, plain⟩⟩
      · exact ⟨stops, .inr ⟨_, free, spelled, (asName_eq spelled).symm⟩⟩
    · intro h
      rcases h with ⟨stops, ⟨rfl, word, plain⟩ | ⟨k, free, spelled, rfl⟩⟩
      · exact .plainName word plain stops
      · rw [asName_eq spelled]
        exact .keywordName free spelled stops

theorem reads_name_bind {α : Type} (expected : String) {f : String → Parser α}
    {R : String → α → List Lexeme → Prop} (reads : ∀ n, Reads (f n) (R n)) :
    Reads (Parser.name expected >>= f) fun a ls => ∃ n ms, R n a ms ∧ ls = .name n :: ms := by
  refine ((reads_name expected).bind reads).congr fun a ls => ?_
  simp

theorem reads_typeName : Reads Parser.typeName fun s ls => ls = [.typeName s] := by
  apply reads_word (fun k => k.isType = true) Keyword.name (fun _ => rfl)
  · intro k r s r'
    dsimp only
    split
    · rename_i type
      simp [StateT.pure_eq_ok_iff, type]
    · rename_i other
      simp [blame_ne_ok, other]
  · intro t r s r' run
    split at run
    · exact .inl ⟨_, rfl⟩
    · exact .inr ⟨_, rfl⟩
    · exact absurd run blame_ne_ok
  · intro s w rest
    constructor
    · intro h
      rcases h with _ | _ | _ | ⟨word, plain, stops⟩ | ⟨type, spelled, stops⟩
      · exact ⟨stops, .inl ⟨rfl, word, plain⟩⟩
      · exact ⟨stops, .inr ⟨_, type, spelled, (name_eq spelled).symm⟩⟩
    · intro h
      rcases h with ⟨stops, ⟨rfl, word, plain⟩ | ⟨k, type, spelled, rfl⟩⟩
      · exact .plainType word plain stops
      · rw [name_eq spelled]
        exact .keywordType type spelled stops

theorem reads_literal : Reads Parser.literal fun s ls => ∃ l : Literal, l.value = s ∧ ls = [.literal l] := by
  intro cs s r
  rw [Parser.literal, StateT.bind_eq_ok_iff]
  constructor
  · intro h
    rcases h with ⟨t, mid, token, run⟩
    split at run
    · obtain ⟨rfl, rfl⟩ := StateT.pure_eq_ok_iff.mp run
      obtain ⟨l, rest, rfl, value, opens⟩ := nextValue_value_iff.mp token
      exact ⟨_, rest, rfl, ⟨l, value, rfl⟩, opens⟩
    · exact absurd run blame_ne_ok
  · intro h
    rcases h with ⟨ls, rest, rfl, ⟨l, rfl, rfl⟩, opens⟩
    exact ⟨_, _, nextValue_value_iff.mpr ⟨l, rest, rfl, rfl, opens⟩, rfl⟩

theorem reads_columnDefinition :
    Reads Parser.columnDefinition fun c ls => ls = [.name c.name, .typeName c.typeName] := by
  have reads := reads_name_bind "column name" fun n => reads_typeName.bind fun t =>
    reads_pure (⟨n, t⟩ : ColumnDefinition)
  refine reads.congr fun c ls => ?_
  rcases c with ⟨n, t⟩
  simp

section Items

variable {α : Type} {item : Parser α} {R : α → List Lexeme → Prop}

theorem items_closing {bounded : Parser.Bounded item} {r mid r' : Reader} {a : α}
    (read : item r = .ok (a, mid)) (token : mid.next = (.closing, r')) :
    Parser.items item bounded r = .ok ([a], r') := by
  rw [Parser.items]
  split
  · simp_all
  · split <;> simp_all

theorem items_comma {bounded : Parser.Bounded item} {r mid next r' : Reader} {a : α} {as : List α}
    (read : item r = .ok (a, mid)) (token : mid.next = (.comma, next))
    (others : Parser.items item bounded next = .ok (as, r')) :
    Parser.items item bounded r = .ok (a :: as, r') := by
  rw [Parser.items]
  split
  · simp_all
  · split <;> simp_all [Except.map]

theorem opens_of_items {bounded : Parser.Bounded item} (reads : Reads item R) {cs : List Char} {as : List α}
    {r : Reader} (run : Parser.items item bounded ⟨none, cs⟩ = .ok (as, r)) :
    ∃ parts rest, r = ⟨none, rest⟩ ∧ as ≠ [] ∧ List.Forall₂ R as parts ∧
      Opens EndsPlain (itemList parts) cs rest := by
  generalize start : (⟨none, cs⟩ : Reader) = r₀ at run
  -- The parser calls itself only after an item and a comma, with a reader that has nothing waiting again.
  fun_induction Parser.items item bounded r₀ generalizing cs as r with
  | case1 r₀ e failed => simp at run
  | case2 r₀ a mid read next token =>
    cases run
    subst start
    obtain ⟨part, middle, rfl, result, opens⟩ := (reads cs a mid).mp read
    obtain ⟨rest, rfl, close⟩ := shows_closing.opens_of_next token
    exact ⟨[part], rest, rfl, by simp, .cons result .nil, opens.append close⟩
  | case3 r₀ a mid read next token ih =>
    subst start
    obtain ⟨part, middle, rfl, result, opens⟩ := (reads cs a mid).mp read
    obtain ⟨after, rfl, comma⟩ := shows_comma.opens_of_next token
    cases tail : Parser.items item bounded ⟨none, after⟩ with
    | error e => simp [tail, Except.map] at run
    | ok ar =>
      rcases ar with ⟨others, r'⟩
      simp only [tail, Except.map, Except.ok.injEq, Prod.mk.injEq] at run
      obtain ⟨rfl, rfl⟩ := run
      obtain ⟨parts, rest, rfl, filled, each, opens'⟩ := ih rfl tail
      have more : parts ≠ [] := by
        intro same
        subst same
        cases each
        exact filled rfl
      refine ⟨part :: parts, rest, rfl, by simp, .cons result each, ?_⟩
      rw [itemList_cons more]
      exact opens.append (opens_cons_iff.mpr ⟨after, comma, opens'⟩)
  | case4 => simp at run

theorem items_of_opens {bounded : Parser.Bounded item} (reads : Reads item R) {cs rest : List Char} {as : List α}
    {parts : List (List Lexeme)} (filled : as ≠ []) (each : List.Forall₂ R as parts)
    (opens : Opens EndsPlain (itemList parts) cs rest) :
    Parser.items item bounded ⟨none, cs⟩ = .ok (as, ⟨none, rest⟩) := by
  induction each generalizing cs with
  | nil => exact absurd rfl filled
  | @cons a part as parts first others ih =>
    cases others with
    | nil =>
      obtain ⟨mid, opens, close⟩ := opens_append_iff.mp opens
      exact items_closing ((reads _ _ _).mpr ⟨part, mid, rfl, first, opens⟩) (shows_closing.next_iff.mpr close)
    | cons second others =>
      rw [itemList_cons (by simp)] at opens
      obtain ⟨mid, opens, opens'⟩ := opens_append_iff.mp opens
      obtain ⟨next, comma, opens'⟩ := opens_cons_iff.mp opens'
      exact items_comma ((reads _ _ _).mpr ⟨part, mid, rfl, first, opens⟩) (shows_comma.next_iff.mpr comma)
        (ih (by simp) opens')

theorem reads_items (bounded : Parser.Bounded item) (reads : Reads item R) :
    Reads (Parser.items item bounded) fun as ls =>
      as ≠ [] ∧ ∃ parts, List.Forall₂ R as parts ∧ ls = itemList parts := by
  intro cs as r
  constructor
  · intro run
    obtain ⟨parts, rest, rfl, filled, each, opens⟩ := opens_of_items reads run
    exact ⟨_, rest, rfl, ⟨filled, parts, each, rfl⟩, opens⟩
  · intro h
    rcases h with ⟨ls, rest, rfl, ⟨filled, parts, each, rfl⟩, opens⟩
    exact items_of_opens reads filled each opens

theorem forall₂_eq_iff {f : α → List Lexeme} {as : List α} {parts : List (List Lexeme)} :
    List.Forall₂ (fun a ls => ls = f a) as parts ↔ parts = as.map f := by
  have mapped := @List.forall₂_map_left_iff _ _ _ (fun ls ms => ms = ls) f as parts
  have same : (fun ls ms : List Lexeme => ms = ls) = (· = ·) := by
    funext ls ms
    exact propext eq_comm
  rw [← mapped, same, List.forall₂_eq_eq_eq, eq_comm]

end Items

theorem reads_names : Reads Parser.names fun names ls =>
    names ≠ [] ∧ ls = itemList (names.map fun n => [.name n]) := by
  refine (reads_items _ (reads_name "field")).congr fun names ls => and_congr_right fun _ => ?_
  simp only [forall₂_eq_iff, exists_eq_left]

theorem reads_columnDefinitions : Reads Parser.columnDefinitions fun columns ls =>
    columns ≠ [] ∧ ls = itemList (columns.map fun c => [.name c.name, .typeName c.typeName]) := by
  refine (reads_items _ reads_columnDefinition).congr fun columns ls => and_congr_right fun _ => ?_
  simp only [forall₂_eq_iff, exists_eq_left]

theorem reads_namedColumns :
    Reads (Parser.names >>= fun names => pure (Columns.named names)) fun columns ls =>
      ∃ names, names ≠ [] ∧ columns = .named names ∧ .symbol '(' :: ls = nameList names := by
  refine (reads_names.bind fun names => reads_pure (Columns.named names)).congr fun columns ls => ?_
  simp [nameList]

theorem forall₂_literal_iff {values : List String} {parts : List (List Lexeme)} :
    List.Forall₂ (fun s ls => ∃ l : Literal, l.value = s ∧ ls = [.literal l]) values parts ↔
      ∃ literals : List Literal, values = literals.map Literal.value ∧
        parts = literals.map fun l => [.literal l] := by
  constructor
  · intro each
    induction each with
    | nil => exact ⟨[], rfl, rfl⟩
    | cons first _ ih =>
      obtain ⟨l, rfl, rfl⟩ := first
      obtain ⟨literals, rfl, rfl⟩ := ih
      exact ⟨l :: literals, rfl, rfl⟩
  · intro h
    rcases h with ⟨literals, rfl, rfl⟩
    induction literals with
    | nil => exact .nil
    | cons l literals ih => exact .cons ⟨l, rfl, rfl⟩ ih

theorem reads_literals : Reads Parser.literals fun values ls =>
    ∃ literals : List Literal, literals ≠ [] ∧ values = literals.map Literal.value ∧
      ls = itemList (literals.map fun l => [.literal l]) := by
  refine (reads_items _ reads_literal).congr fun values ls => ?_
  simp only [forall₂_literal_iff]
  constructor
  · intro h
    rcases h with ⟨filled, _, ⟨literals, rfl, rfl⟩, rfl⟩
    exact ⟨literals, by simpa using filled, rfl, rfl⟩
  · intro h
    rcases h with ⟨literals, filled, rfl, rfl⟩
    exact ⟨by simpa using filled, _, ⟨literals, rfl, rfl⟩, rfl⟩

theorem expect_waiting {t : Token} (solid : ∀ s, t ≠ .blank s) (rest : List Char) :
    Parser.expect t ⟨some t, rest⟩ = .ok ((), ⟨none, rest⟩) := by
  have token : Reader.next ⟨some t, rest⟩ = (t, ⟨none, rest⟩) := by
    simp only [Reader.next, Reader.scan]
    split
    · rename_i s _ same
      exact absurd (congrArg Prod.fst same) (solid s)
    · rfl
  rw [Parser.expect, StateT.bind_eq_ok_iff]
  exact ⟨t, _, congrArg _ token, by rw [if_pos rfl]; rfl⟩

theorem reads_insertColumns :
    Reads (do let columns ← Parser.insertColumns; Parser.expect (.keyword .values); return columns)
      fun columns ls => columns ≠ .named [] ∧ ls = insertColumns columns ++ [.keyword .values] := by
  have named := reads_namedColumns.bind fun columns => reads_expect_pure (shows_keyword .values) columns
  intro cs columns r
  rw [Parser.insertColumns, bind_assoc, next_bind_eq_ok_iff]
  constructor
  · intro h
    rcases h with ⟨t, mid, token, run⟩
    split at run
    · obtain ⟨_, waiting, handed, run⟩ := StateT.bind_eq_ok_iff.mp run
      cases handed
      obtain ⟨_, _, expected, run⟩ := StateT.bind_eq_ok_iff.mp run
      rw [expect_waiting (by simp)] at expected
      cases expected
      cases run
      exact ⟨_, mid, rfl, ⟨by simp, rfl⟩, (shows_keyword .values).next_iff.mp token⟩
    · obtain ⟨_, rest, rfl, ⟨_, ks, ms, ⟨names, filled, rfl, list⟩, ⟨rfl, rfl⟩, rfl⟩, opens⟩ := (named _ _ _).mp run
      refine ⟨_, rest, rfl, ⟨by simpa using filled, rfl⟩, ?_⟩
      rw [insertColumns, ← list]
      exact opens_cons_iff.mpr ⟨mid, shows_opening.next_iff.mp token, opens⟩
    · obtain ⟨_, _, blamed, _⟩ := StateT.bind_eq_ok_iff.mp run
      exact absurd blamed blame_ne_ok
  · intro h
    rcases h with ⟨_, rest, rfl, ⟨filled, rfl⟩, opens⟩
    cases columns with
    | all =>
      refine ⟨_, rest, (shows_keyword .values).next_iff.mpr opens, ?_⟩
      refine StateT.bind_eq_ok_iff.mpr ⟨.all, ⟨some (.keyword .values), rest⟩, rfl, ?_⟩
      exact StateT.bind_eq_ok_iff.mpr ⟨(), ⟨none, rest⟩, expect_waiting (by simp) rest, rfl⟩
    | named names =>
      obtain ⟨mid, opened, opens⟩ := opens_cons_iff.mp opens
      refine ⟨_, mid, shows_opening.next_iff.mpr opened, (named _ _ _).mpr ⟨_, rest, rfl, ?_, opens⟩⟩
      exact ⟨_, _, _, ⟨names, by simpa using filled, rfl, rfl⟩, ⟨rfl, rfl⟩, rfl⟩

theorem reads_selectColumns : Reads Parser.selectColumns fun columns ls =>
    columns ≠ .named [] ∧ ls = selectColumns columns := by
  intro cs columns r
  rw [Parser.selectColumns, next_bind_eq_ok_iff]
  constructor
  · intro h
    rcases h with ⟨t, mid, token, run⟩
    split at run
    · obtain ⟨rfl, rfl⟩ := StateT.pure_eq_ok_iff.mp run
      exact ⟨_, mid, rfl, ⟨by simp, rfl⟩, shows_asterisk.next_iff.mp token⟩
    · obtain ⟨_, rest, rfl, ⟨names, filled, rfl, list⟩, opens⟩ := (reads_namedColumns _ _ _).mp run
      refine ⟨_, rest, rfl, ⟨by simpa using filled, rfl⟩, ?_⟩
      rw [selectColumns, ← list]
      exact opens_cons_iff.mpr ⟨mid, shows_opening.next_iff.mp token, opens⟩
    · exact absurd run blame_ne_ok
  · intro h
    rcases h with ⟨_, rest, rfl, ⟨filled, rfl⟩, opens⟩
    cases columns with
    | all => exact ⟨_, rest, shows_asterisk.next_iff.mpr opens, rfl⟩
    | named names =>
      obtain ⟨mid, opened, opens⟩ := opens_cons_iff.mp opens
      refine ⟨_, mid, shows_opening.next_iff.mpr opened, ?_⟩
      exact (reads_namedColumns _ _ _).mpr ⟨_, rest, rfl, ⟨names, by simpa using filled, rfl, rfl⟩, opens⟩

theorem sentence_insert_iff {i : Insert} {ls : List Lexeme} :
    Sentence (.insert i) ls ↔ ∃ table columns literals, columns ≠ .named [] ∧ literals ≠ [] ∧
      i = ⟨table, columns, literals.map Literal.value⟩ ∧ ls = insertion table columns literals := by
  constructor
  · intro h
    cases h
    exact ⟨_, _, _, ‹_›, ‹_›, rfl, rfl⟩
  · intro h
    rcases h with ⟨table, columns, literals, named, given, rfl, rfl⟩
    exact .insert named given

theorem sentence_select_iff {q : Select} {ls : List Lexeme} :
    Sentence (.select q) ls ↔
      ∃ columns table, columns ≠ .named [] ∧ q = ⟨table, columns⟩ ∧ ls = selection table columns := by
  constructor
  · intro h
    cases h
    exact ⟨_, _, ‹_›, rfl, rfl⟩
  · intro h
    rcases h with ⟨columns, table, named, rfl, rfl⟩
    exact .select named

theorem sentence_createTable_iff {c : CreateTable} {ls : List Lexeme} :
    Sentence (.createTable c) ls ↔
      ∃ table columns, columns ≠ [] ∧ c = ⟨table, columns⟩ ∧ ls = creation table columns := by
  constructor
  · intro h
    cases h
    exact ⟨_, _, ‹_›, rfl, rfl⟩
  · intro h
    rcases h with ⟨table, columns, given, rfl, rfl⟩
    exact .create given

theorem reads_insert : Reads Parser.insert fun i ls => Sentence (.insert i) (.keyword .insert :: ls) := by
  have reads := reads_expect_bind (shows_keyword .into) <| reads_name_bind "table name" fun table =>
    reads_insertColumns.bind fun columns => reads_expect_bind shows_opening <| reads_literals.bind fun values =>
      reads_expect_pure shows_semicolon (⟨table, columns, values⟩ : Insert)
  simp only [bind_assoc, pure_bind] at reads
  refine reads.congr fun i ls => ?_
  rw [sentence_insert_iff]
  simp [insertion, literalList, and_assoc]

theorem reads_select : Reads Parser.select fun q ls => Sentence (.select q) (.keyword .select :: ls) := by
  have reads := reads_selectColumns.bind fun columns => reads_expect_bind (shows_keyword .from) <|
    reads_name_bind "table name" fun table => reads_expect_pure shows_semicolon (⟨table, columns⟩ : Select)
  refine reads.congr fun q ls => ?_
  rw [sentence_select_iff]
  simp [selection]

theorem reads_createTable :
    Reads Parser.createTable fun c ls => Sentence (.createTable c) (.keyword .create :: ls) := by
  have reads := reads_expect_bind (shows_keyword .table) <| reads_name_bind "table name" fun table =>
    reads_expect_bind shows_opening <| reads_columnDefinitions.bind fun columns =>
      reads_expect_pure shows_semicolon (⟨table, columns⟩ : CreateTable)
  refine reads.congr fun c ls => ?_
  rw [sentence_createTable_iff]
  simp [creation, definitionList, and_assoc]

theorem Sentence.opens {s : Statement} {ls : List Lexeme} (sentence : Sentence s ls) :
    ∃ ms, ls = .keyword s.firstKeyword :: ms := by
  cases sentence with
  | insert => exact ⟨_, rfl⟩
  | select => exact ⟨_, rfl⟩
  | create => exact ⟨_, rfl⟩

section Branches

variable {α : Type} {k : Keyword} {p : Parser α} {kind : α → Statement} {cs mid : List Char}

theorem branch_sound (reads : Reads p fun a ls => Sentence (kind a) (.keyword k :: ls))
    (token : Reader.next ⟨none, cs⟩ = (.keyword k, ⟨none, mid⟩)) {s : Statement} {r : Reader}
    (run : (p >>= fun a => pure (kind a)) ⟨none, mid⟩ = .ok (s, r)) :
    ∃ ls rest, r = ⟨none, rest⟩ ∧ Sentence s ls ∧ Opens EndsPlain ls cs rest := by
  obtain ⟨a, _, run, done⟩ := StateT.bind_eq_ok_iff.mp run
  obtain ⟨rfl, rfl⟩ := StateT.pure_eq_ok_iff.mp done
  obtain ⟨ls, rest, rfl, sentence, opens⟩ := (reads _ _ _).mp run
  exact ⟨_, rest, rfl, sentence, opens_cons_iff.mpr ⟨mid, (shows_keyword k).next_iff.mp token, opens⟩⟩

theorem branch_complete (reads : Reads p fun a ls => Sentence (kind a) (.keyword k :: ls)) {a : α}
    {ls : List Lexeme} {rest : List Char} (sentence : Sentence (kind a) (.keyword k :: ls))
    (opens : Opens EndsPlain (.keyword k :: ls) cs rest) :
    ∃ mid, Reader.next ⟨none, cs⟩ = (.keyword k, ⟨none, mid⟩) ∧
      (p >>= fun a => pure (kind a)) ⟨none, mid⟩ = .ok (kind a, ⟨none, rest⟩) := by
  obtain ⟨mid, first, others⟩ := opens_cons_iff.mp opens
  refine ⟨mid, (shows_keyword k).next_iff.mpr first, StateT.bind_eq_ok_iff.mpr ⟨a, ⟨none, rest⟩, ?_, rfl⟩⟩
  exact (reads _ _ _).mpr ⟨ls, rest, rfl, sentence, others⟩

end Branches

theorem reads_statement : Reads Parser.statement Sentence := by
  intro cs s r
  rw [Parser.statement, next_bind_eq_ok_iff]
  constructor
  · intro h
    rcases h with ⟨t, mid, token, run⟩
    split at run
    · exact branch_sound reads_insert token run
    · exact branch_sound reads_select token run
    · exact branch_sound reads_createTable token run
    · exact absurd run blame_ne_ok
  · intro h
    rcases h with ⟨ls, rest, rfl, sentence, opens⟩
    obtain ⟨ms, rfl⟩ := sentence.opens
    cases s with
    | insert i =>
      obtain ⟨mid, token, run⟩ := branch_complete reads_insert sentence opens
      exact ⟨_, mid, token, run⟩
    | select q =>
      obtain ⟨mid, token, run⟩ := branch_complete reads_select sentence opens
      exact ⟨_, mid, token, run⟩
    | createTable c =>
      obtain ⟨mid, token, run⟩ := branch_complete reads_createTable sentence opens
      exact ⟨_, mid, token, run⟩

theorem wholeStatement_eq_ok_iff {cs : List Char} {s : Statement} :
    (∃ r, Parser.wholeStatement ⟨none, cs⟩ = .ok (s, r)) ↔ Spelling EndsPlain s cs := by
  rw [Parser.wholeStatement]
  constructor
  · intro h
    rcases h with ⟨r, run⟩
    obtain ⟨s', _, run, final⟩ := StateT.bind_eq_ok_iff.mp run
    obtain ⟨ls, rest, rfl, sentence, opens⟩ := (reads_statement _ _ _).mp run
    obtain ⟨t, mid, token, final⟩ := next_bind_eq_ok_iff.mp final
    split at final
    · obtain ⟨rfl, rfl⟩ := StateT.pure_eq_ok_iff.mp final
      exact ⟨ls, rest, sentence, opens, (next_endOfText_iff.mp token).1⟩
    · exact absurd final blame_ne_ok
  · intro h
    rcases h with ⟨ls, rest, sentence, opens, blank⟩
    have run := (reads_statement cs s ⟨none, rest⟩).mpr ⟨ls, rest, rfl, sentence, opens⟩
    have token : Reader.next ⟨none, rest⟩ = (.endOfText, ⟨none, []⟩) := next_endOfText_iff.mpr ⟨blank, rfl⟩
    exact ⟨⟨none, []⟩, StateT.bind_eq_ok_iff.mpr ⟨s, _, run, next_bind_eq_ok_iff.mpr ⟨_, [], token, rfl⟩⟩⟩

theorem parse_eq (sql : String) :
    Statement.parse sql = (Parser.wholeStatement ⟨none, sql.toList⟩).map (·.1) := rfl

theorem spelling_of_parse {sql : String} {s : Statement} (parsed : Statement.parse sql = .ok s) :
    Spelling EndsPlain s sql.toList := by
  rw [parse_eq] at parsed
  cases run : Parser.wholeStatement ⟨none, sql.toList⟩ with
  | error e => simp [run, Except.map] at parsed
  | ok sr =>
    simp only [run, Except.map, Except.ok.injEq] at parsed
    subst parsed
    exact wholeStatement_eq_ok_iff.mp ⟨sr.2, run⟩

theorem Spelling.parse_eq_ok {sql : String} {s : Statement} (spelling : Spelling EndsPlain s sql.toList) :
    Statement.parse sql = .ok s := by
  obtain ⟨r, run⟩ := wholeStatement_eq_ok_iff.mpr spelling
  rw [parse_eq, run]
  rfl

/-- Statements are read from exactly the texts that spell them. -/
theorem parse_eq_ok_iff_spelling (sql : String) (s : Statement) :
    Statement.parse sql = .ok s ↔ Spelling EndsPlain s sql.toList :=
  ⟨spelling_of_parse, Spelling.parse_eq_ok⟩

/-- A literal without quotes ends at a blank too, not only at the marks that follow a literal. -/
theorem blank_ends_plain_literal : ¬∀ (sql : String) (s : Statement),
    Statement.parse sql = .ok s ↔ Spelling (fun c => c = ',' ∨ c = ';' ∨ c = ')') s sql.toList := by
  intro agree
  have refused : Statement.parse "INSERT INTO t VALUES (1 2);" = .error (.unexpected "2" ", or )") := by
    cbv
  have spelled : Spelling (fun c => c = ',' ∨ c = ';' ∨ c = ')') (.insert ⟨"t", .all, ["1 2"]⟩)
      "INSERT INTO t VALUES (1 2);".toList := by
    have none : IsGap [] := by decide
    have one : IsGap [' '] := by decide
    refine ⟨_, [], @Sentence.insert "t" .all [.plain "1 2"] (by decide) (by simp), ?_, none⟩
    apply @Opens.cons _ _ _ [] "INSERT".toList " INTO t VALUES (1 2);".toList _ none (.keyword (by decide) (by decide))
    apply @Opens.cons _ _ _ [' '] "INTO".toList " t VALUES (1 2);".toList _ one (.keyword (by decide) (by decide))
    apply @Opens.cons _ _ _ [' '] "t".toList " VALUES (1 2);".toList _ one
    · have plain : ∀ k, ¬IsKeyword k ['t'] := by
        intro k
        cases k <;> decide
      exact .plainName (.mk (by decide) (by simp)) plain (by decide)
    apply @Opens.cons _ _ _ [' '] "VALUES".toList " (1 2);".toList _ one (.keyword (by decide) (by decide))
    apply @Opens.cons _ _ _ [' '] "(".toList "1 2);".toList _ one .symbol
    apply @Opens.cons _ _ _ [] "1 2".toList ");".toList _ none
    · exact .plain (by decide) (by decide) (by simp) (by decide)
    apply @Opens.cons _ _ _ [] ")".toList ";".toList _ none .symbol
    exact @Opens.cons _ _ _ [] ";".toList [] _ none .symbol .nil
  rw [← agree, refused] at spelled
  cases spelled

end RowBase.Sql.Grammar
