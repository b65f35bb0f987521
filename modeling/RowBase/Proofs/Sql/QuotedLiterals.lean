import RowBase.Proofs.Sql.Scanning

namespace RowBase.Sql.Grammar

theorem quotedText_eq_some_iff {cs s rest : List Char} :
    Token.quotedText cs = (s, some rest) ↔ cs = doubled s ++ '\'' :: rest ∧ Stops (· = '\'') rest := by
  constructor
  · exact doubled_of_quotedText
  · intro h
    rcases h with ⟨rfl, stops⟩
    exact quotedText_doubled s stops

theorem eq_doubled_of_quotedText {cs s : List Char} (h : Token.quotedText cs = (s, none)) : cs = doubled s := by
  fun_induction Token.quotedText cs generalizing s with
  | case1 =>
    cases h
    rfl
  | case2 rest ih =>
    rcases tail : Token.quotedText rest with ⟨s', after⟩
    simp only [tail, Prod.map_apply, id_eq, Prod.mk.injEq] at h
    obtain ⟨rfl, rfl⟩ := h
    simp [doubled_cons, ih tail]
  | case3 => simp at h
  | case4 c rest _ other ih =>
    rcases tail : Token.quotedText rest with ⟨s', after⟩
    simp only [tail, Prod.map_apply, id_eq, Prod.mk.injEq] at h
    obtain ⟨rfl, rfl⟩ := h
    simp [doubled_cons, other, ih tail]

theorem quotedText_of_doubled (s : List Char) : Token.quotedText (doubled s) = (s, none) := by
  induction s with
  | nil => rfl
  | cons c s ih =>
    rw [doubled_cons]
    by_cases quote : c = '\''
    · subst quote
      simp [Token.quotedText, ih]
    · simp [Token.quotedText, quote, ih]

theorem quotedText_eq_none_iff {cs s : List Char} : Token.quotedText cs = (s, none) ↔ cs = doubled s := by
  constructor
  · exact eq_doubled_of_quotedText
  · intro h
    rw [h]
    exact quotedText_of_doubled s

/-- A text is the quoted literal of `v` up to `rest`, which does not go on with a quote. -/
def Quotes (text : List Char) (v : String) (rest : List Char) : Prop :=
  text = (Literal.quoted v).written ++ rest ∧ Stops (· = '\'') rest

theorem quotes_iff {cs rest : List Char} {v : String} :
    Quotes ('\'' :: cs) v rest ↔ Token.quotedText cs = (v.toList, some rest) := by
  simp [Quotes, Literal.written, quotedText_eq_some_iff]

theorem scanValue_quote (cs : List Char) : Token.scanValue ('\'' :: cs) = Token.quotedLiteral cs := by
  simp [Token.scanValue, isSeparator]

theorem scanValue_of_quotes {cs rest : List Char} {v : String} (quotes : Quotes ('\'' :: cs) v rest) :
    Token.scanValue ('\'' :: cs) = (.value v, rest) := by
  rw [scanValue_quote, Token.quotedLiteral, quotes_iff.mp quotes]
  simp

theorem scanValue_of_doubled (v : String) :
    Token.scanValue ('\'' :: doubled v.toList) = (.illegal ("'" ++ v), []) := by
  rw [scanValue_quote, Token.quotedLiteral, quotedText_of_doubled]
  simp [String.ofList_cons]

theorem quotes_or_doubled (cs : List Char) :
    (∃ v rest, Quotes ('\'' :: cs) v rest ∧ ∀ v' rest', Quotes ('\'' :: cs) v' rest' → v' = v ∧ rest' = rest) ∨
    ∃ v : String, cs = doubled v.toList ∧ (∀ v' rest, ¬Quotes ('\'' :: cs) v' rest) ∧
      ∀ v' : String, cs = doubled v'.toList → v' = v := by
  rcases read : Token.quotedText cs with ⟨s, _ | rest⟩
  · refine .inr ⟨.ofList s, ?_, fun v' rest quotes => ?_, fun v' same => ?_⟩
    · rw [String.toList_ofList]
      exact quotedText_eq_none_iff.mp read
    · simp [quotes_iff, read] at quotes
    · have read' := quotedText_eq_none_iff.mpr same
      rw [read, Prod.mk.injEq] at read'
      rw [read'.1, String.ofList_toList]
  · refine .inl ⟨.ofList s, rest, ?_, fun v' rest' quotes => ?_⟩
    · rw [quotes_iff, String.toList_ofList]
      exact read
    · rw [quotes_iff, read, Prod.mk.injEq, Option.some.injEq] at quotes
      rw [quotes.1, String.ofList_toList]
      exact ⟨rfl, quotes.2.symm⟩

/-- A text that starts with a quote is read as a value exactly if it is the quoted literal of that value up to what is
left. Either it is so in one way only, or in none: then all the text is one illegal token, which is a quote and the one
text whose quotes, written twice, are what follows the quote. -/
theorem quoted_literals_read_exactly (cs : List Char) :
    (∀ v rest, Token.scanValue ('\'' :: cs) = (.value v, rest) ↔ Quotes ('\'' :: cs) v rest) ∧
    ((∃ v rest, ∀ v' rest', Quotes ('\'' :: cs) v' rest' ↔ v' = v ∧ rest' = rest) ∨
      ∃ v : String, (∀ v' rest, ¬Quotes ('\'' :: cs) v' rest) ∧ (∀ v' : String, cs = doubled v'.toList ↔ v' = v) ∧
        Token.scanValue ('\'' :: cs) = (.illegal ("'" ++ v), [])) := by
  rcases quotes_or_doubled cs with ⟨v, rest, quotes, unique⟩ | ⟨v, unclosed, none, unique⟩
  · refine ⟨fun v' rest' => ⟨fun scanned => ?_, scanValue_of_quotes⟩, .inl ⟨v, rest, fun v' rest' => ⟨unique v' rest', ?_⟩⟩⟩
    · rw [scanValue_of_quotes quotes, Prod.mk.injEq, Token.value.injEq] at scanned
      obtain ⟨rfl, rfl⟩ := scanned
      exact quotes
    · rintro ⟨rfl, rfl⟩
      exact quotes
  · have illegal : Token.scanValue ('\'' :: cs) = (.illegal ("'" ++ v), []) := by rw [unclosed, scanValue_of_doubled]
    refine ⟨fun v' rest => iff_of_false (fun scanned => ?_) (none v' rest), .inr ⟨v, none, fun v' => ⟨unique v', ?_⟩, illegal⟩⟩
    · rw [illegal] at scanned
      cases scanned
    · rintro rfl
      exact unclosed

example : Token.scanValue "'''',x".toList = (.value "'", [',', 'x']) ∧
    Token.scanValue "''',x".toList = (.illegal "'',x", []) := by
  decide

end RowBase.Sql.Grammar
