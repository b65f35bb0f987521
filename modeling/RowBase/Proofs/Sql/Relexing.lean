import RowBase.Proofs.Sql.Parsing
import RowBase.Proofs.Sql.Progress

namespace RowBase.Sql

/-- What a token shows of the characters it was read from: a keyword has its letters in capitals, any other token is as
it was written. -/
def Token.Reproduces : Token → List Char → Prop
  | keyword k, w => (∀ c ∈ w, Grammar.IsLetter c) ∧ k.name.toList = w.map Char.toUpper
  | t, w => t.text.toList = w

def Token.capitalized : Token → List Char → List Char
  | keyword _, w => w.map Char.toUpper
  | _, w => w

theorem Token.Reproduces.text_eq {t : Token} {w : List Char} (shown : t.Reproduces w) :
    t.text.toList = t.capitalized w := by
  cases t with
  | keyword => exact shown.2
  | _ => exact shown

theorem texts_eq {ts : List Token} {ws : List (List Char)} (shown : List.Forall₂ Token.Reproduces ts ws) :
    ts.flatMap (·.text.toList) = (List.zipWith Token.capitalized ts ws).flatten := by
  induction shown with
  | nil => rfl
  | cons first _ ih => rw [List.flatMap_cons, List.zipWith_cons_cons, List.flatten_cons, first.text_eq, ih]

namespace Grammar

/-- The text `w`, before `rest`, is a token of statement mode or a piece of blanks. -/
inductive Lexes : Token → (w rest : List Char) → Prop
  | blank {w rest : List Char} (filled : w ≠ []) (gap : IsGap w) (stops : Stops (· ∈ blanks) rest) :
      Lexes (.blank (.ofList w)) w rest
  | solid {t : Token} {w rest : List Char} (scans : Scans t w rest) : Lexes t w rest

theorem Lexes.filled {t : Token} {w rest : List Char} (lexes : Lexes t w rest) : w ≠ [] := by
  cases lexes with
  | blank filled => exact filled
  | solid scans =>
    obtain ⟨c, cs, rfl, -⟩ := scans.head_not_blank
    simp

theorem Lexes.ne_endOfText {t : Token} {w rest : List Char} (lexes : Lexes t w rest) : t ≠ .endOfText := by
  cases lexes with
  | blank => simp
  | solid scans => exact scans.ne_endOfText

theorem scan_of_lexes {t : Token} {w rest : List Char} (lexes : Lexes t w rest) :
    Token.scan (w ++ rest) = (t, rest) := by
  cases lexes with
  | blank filled gap stops =>
    have inside : ∀ c ∈ w, isSeparator c = true := fun c member => isSeparator_iff.mpr (gap c member)
    have beyond : ∀ c ∈ rest.head?, isSeparator c = false := fun c member =>
      isSeparator_eq_false_iff.mpr (stops c member)
    have spanned := span_of_stops inside beyond
    cases w with
    | nil => exact absurd rfl filled
    | cons c cs =>
      rw [List.cons_append] at spanned ⊢
      simp [Token.scan, inside c (by simp), spanned]
  | solid scans => exact scan_of_scans scans

theorem lexes_scan (c : Char) (cs : List Char) :
    ∃ w, c :: cs = w ++ (Token.scan (c :: cs)).2 ∧ Lexes (Token.scan (c :: cs)).1 w (Token.scan (c :: cs)).2 := by
  by_cases blank : c ∈ blanks
  · have separator : isSeparator c = true := isSeparator_iff.mpr blank
    have scanned := Token.scanIn_of_separator .statement separator cs
    rw [Token.scanIn] at scanned
    rw [scanned]
    refine ⟨c :: cs.takeWhile isSeparator, by simp, .blank (by simp) ?_ ?_⟩
    · intro d member
      rcases List.mem_cons.mp member with rfl | member
      · exact blank
      · exact isGap_takeWhile cs d member
    · exact fun d member => isSeparator_eq_false_iff.mp (stops_dropWhile isSeparator cs d member)
  · obtain ⟨w, split, scans⟩ := scans_scan blank cs
    exact ⟨w, split, .solid scans⟩

theorem toList_text_ofSymbol (c : Char) : (Token.ofSymbol c).text.toList = [c] := by
  simp [text_ofSymbol, Char.toString]

theorem Lexes.reproduces {t : Token} {w rest : List Char} (lexes : Lexes t w rest) : t.Reproduces w := by
  cases lexes with
  | blank => exact String.toList_ofList
  | solid scans =>
    cases scans with
    | keyword spelled => exact ⟨fun c member => spelled.isLetter member, spelled.symm⟩
    | word => exact String.toList_ofList
    | @symbol c =>
      have text := toList_text_ofSymbol c
      cases token : Token.ofSymbol c with
      | keyword k => exact absurd token (ofSymbol_ne_keyword c k)
      | _ =>
        rw [token] at text
        exact text

/-- Tokens with the pieces of a text that they are read from, one after the other. -/
inductive Cut : List Token → List (List Char) → Prop
  | nil : Cut [] []
  | cons {t : Token} {ts : List Token} {w : List Char} {ws : List (List Char)} (first : Lexes t w ws.flatten)
      (others : Cut ts ws) : Cut (t :: ts) (w :: ws)

theorem tokens_nil : Token.tokens [] = [] := by
  rw [Token.tokens]
  rfl

theorem tokens_of_lexes {t : Token} {w rest : List Char} (lexes : Lexes t w rest) :
    Token.tokens (w ++ rest) = t :: Token.tokens rest := by
  have found : Token.next (w ++ rest) = (some t, rest) := by
    have more := lexes.ne_endOfText
    rw [Token.next, scan_of_lexes lexes]
    split <;> simp_all
  rw [Token.tokens]
  split
  · simp_all
  · simp_all

theorem tokens_of_cut {ts : List Token} {ws : List (List Char)} (cut : Cut ts ws) : Token.tokens ws.flatten = ts := by
  induction cut with
  | nil => exact tokens_nil
  | cons first _ ih => rw [List.flatten_cons, tokens_of_lexes first, ih]

theorem exists_cut (cs : List Char) : ∃ ws, ws.flatten = cs ∧ Cut (Token.tokens cs) ws := by
  induction h : cs.length using Nat.strong_induction_on generalizing cs with
  | _ n ih =>
    cases cs with
    | nil => exact ⟨[], rfl, tokens_nil ▸ .nil⟩
    | cons c cs =>
      have shorter := Token.length_scan_lt c cs
      obtain ⟨w, split, lexes⟩ := lexes_scan c cs
      obtain ⟨ws, whole, others⟩ := ih _ (by omega) (Token.scan (c :: cs)).2 rfl
      refine ⟨w :: ws, by rw [List.flatten_cons, whole, ← split], ?_⟩
      have tokens := tokens_of_lexes lexes
      rw [← split] at tokens
      rw [tokens]
      exact .cons (whole.symm ▸ lexes) others

theorem Cut.reproduces {ts : List Token} {ws : List (List Char)} (cut : Cut ts ws) :
    List.Forall₂ Token.Reproduces ts ws := by
  induction cut with
  | nil => exact .nil
  | cons first _ ih => exact .cons first.reproduces ih

def SameHead (cs ds : List Char) : Prop :=
  ∀ d ∈ ds.head?, d ∈ cs.head? ∨ IsLetter d ∧ ∃ c ∈ cs.head?, IsLetter c

theorem isKeyword_name (k : Keyword) : IsKeyword k k.name.toList := by
  cases k <;> decide

theorem Lexes.sameHead {t : Token} {w rest rest' : List Char} (lexes : Lexes t w rest) :
    SameHead (w ++ rest) (t.text.toList ++ rest') := by
  have shown := lexes.reproduces
  obtain ⟨c, cs, rfl⟩ := List.exists_cons_of_ne_nil lexes.filled
  intro d member
  cases t with
  | keyword k =>
    obtain ⟨letters, capitals⟩ := shown
    rw [Token.text, capitals] at member
    have capital : d ∈ k.name.toList := by
      rw [capitals]
      simp_all
    exact .inr ⟨(isKeyword_name k).isLetter capital, c, by simp, letters c (by simp)⟩
  | _ =>
    change _ = c :: cs at shown
    rw [shown] at member
    exact .inl member

theorem Stops.of_sameHead {p : Char → Prop} {cs ds : List Char} (stops : Stops p cs) (same : SameHead cs ds)
    (letters : (∀ c, IsLetter c → p c) ∨ ∀ c, IsLetter c → ¬p c) : Stops p ds := by
  intro d member
  rcases same d member with member | ⟨capital, c, member, letter⟩
  · exact stops d member
  · rcases letters with all | none
    · exact absurd (all c letter) (stops c member)
    · exact none d capital

theorem Lexes.again {t : Token} {w rest rest' : List Char} (lexes : Lexes t w rest) (same : SameHead rest rest') :
    Lexes t t.text.toList rest' := by
  have word {rest : List Char} (stops : Stops IsWordChar rest) (same : SameHead rest rest') : Stops IsWordChar rest' :=
    stops.of_sameHead same (.inl fun _ => .inl)
  cases lexes with
  | blank filled gap stops =>
    have shown : (Token.blank (.ofList w)).text.toList = w := String.toList_ofList
    rw [shown]
    exact .blank filled gap (stops.of_sameHead same (.inr fun _ => IsLetter.not_blank))
  | solid scans =>
    cases scans with
    | @keyword k _ _ spelled stops => exact .solid (.keyword (isKeyword_name k) (word stops same))
    | word plainWord plain stops =>
      have shown : (Token.word (.ofList w)).text.toList = w := String.toList_ofList
      rw [shown]
      exact .solid (.word plainWord plain (word stops same))
    | @symbol c _ other alone =>
      rw [toList_text_ofSymbol]
      exact .solid (.symbol other alone)

theorem Cut.sameHead {ts : List Token} {ws : List (List Char)} (cut : Cut ts ws) :
    SameHead ws.flatten (ts.flatMap (·.text.toList)) := by
  cases cut with
  | nil => simp [SameHead]
  | cons first _ => exact first.sameHead

theorem Cut.again {ts : List Token} {ws : List (List Char)} (cut : Cut ts ws) : Cut ts (ts.map (·.text.toList)) := by
  induction cut with
  | nil => exact .nil
  | @cons t ts w ws first others ih => exact .cons (first.again others.sameHead) ih

end Grammar

/-- A text is cut into pieces, one for each token; the texts of the tokens, put together, are these pieces with the
letters of keywords in capitals, and have the same tokens again. -/
theorem tokens_lose_nothing (sql : String) :
    (∃ ws : List (List Char), ws.flatten = sql.toList ∧
      List.Forall₂ Token.Reproduces (Token.tokens sql.toList) ws ∧
      (String.join ((Token.tokens sql.toList).map Token.text)).toList =
        (List.zipWith Token.capitalized (Token.tokens sql.toList) ws).flatten) ∧
    Token.tokens (String.join ((Token.tokens sql.toList).map Token.text)).toList = Token.tokens sql.toList := by
  obtain ⟨ws, whole, cut⟩ := Grammar.exists_cut sql.toList
  rw [String.toList_join, List.flatMap_map]
  exact ⟨⟨ws, whole, cut.reproduces, texts_eq cut.reproduces⟩, Grammar.tokens_of_cut cut.again⟩

example : String.join ((Token.tokens "insert Intoé ('Key')".toList).map Token.text) = "INSERT INTOé ('KEY')" := by
  decide +kernel

end RowBase.Sql
