import RowBase.Proofs.Reading
import RowBase.Proofs.Sql.Grammar
import RowBase.Proofs.Text.Letters
import RowBase.Sql.Reader

namespace RowBase.Sql.Grammar

theorem isSeparator_iff {c : Char} : isSeparator c = true ↔ c ∈ blanks := by
  simp [isSeparator, blanks, or_assoc]

theorem isSeparator_eq_false_iff {c : Char} : isSeparator c = false ↔ c ∉ blanks := by
  rw [← isSeparator_iff, Bool.not_eq_true]

theorem startsWord_iff {c : Char} : startsWord c = true ↔ IsLetter c := by
  have capital : c.isUpper = true ↔ 'A' ≤ c ∧ c ≤ 'Z' := decide_eq_true_iff
  have small : c.isLower = true ↔ 'a' ≤ c ∧ c ≤ 'z' := by
    change (decide ('a' ≤ c) && decide (c ≤ 'z')) = true ↔ _
    rw [Bool.and_eq_true, decide_eq_true_iff, decide_eq_true_iff]
  rw [IsLetter, ← capital, ← small]
  exact Bool.or_eq_true_iff

theorem continuesWord_iff {c : Char} : continuesWord c = true ↔ IsWordChar c := by
  have letter : c.isAlpha = true ↔ IsLetter c := startsWord_iff
  have digit : c.isDigit = true ↔ '0' ≤ c ∧ c ≤ '9' := by
    simp [Char.isDigit]
    rfl
  simp [continuesWord, IsWordChar, Char.isAlphanum, letter, digit, or_assoc]

theorem continuesWord_eq_false_iff {c : Char} : continuesWord c = false ↔ ¬IsWordChar c := by
  rw [← continuesWord_iff, Bool.not_eq_true]

theorem endsLiteral_iff {c : Char} : endsLiteral c = true ↔ EndsPlain c := by
  simp [endsLiteral, EndsPlain, isSeparator_iff, or_assoc]

theorem endsLiteral_eq_false_iff {c : Char} : endsLiteral c = false ↔ ¬EndsPlain c := by
  rw [← endsLiteral_iff, Bool.not_eq_true]

theorem IsLetter.toNat_bounds {c : Char} (letter : IsLetter c) : 65 ≤ c.toNat ∧ c.toNat ≤ 122 := by
  rcases letter with ⟨low, high⟩ | ⟨low, high⟩
  · have low : 65 ≤ c.toNat := low
    have high : c.toNat ≤ 90 := high
    omega
  · have low : 97 ≤ c.toNat := low
    have high : c.toNat ≤ 122 := high
    omega

theorem IsWordChar.ascii {c : Char} (word : IsWordChar c) : c.toNat < 128 := by
  rcases word with letter | ⟨_, high⟩ | rfl
  · have := letter.toNat_bounds
    omega
  · have high : c.toNat ≤ 57 := high
    omega
  · decide

theorem IsLetter.not_blank {c : Char} (letter : IsLetter c) : c ∉ blanks := by
  have bounds := letter.toNat_bounds
  intro blank
  simp only [blanks, List.mem_cons, List.not_mem_nil, or_false] at blank
  rcases blank with rfl | rfl | rfl | rfl <;> simp at bounds

theorem IsWord.all {w : List Char} (word : IsWord w) : ∀ c ∈ w, IsWordChar c := by
  cases word with
  | mk first others =>
    intro c member
    rcases List.mem_cons.mp member with rfl | member
    · exact .inl first
    · exact others c member

theorem isLetter_of_toUpper {c : Char} (capital : 65 ≤ c.toUpper.toNat ∧ c.toUpper.toNat ≤ 90) : IsLetter c := by
  rw [Text.toNat_toUpper] at capital
  by_cases small : 97 ≤ c.toNat ∧ c.toNat ≤ 122
  · exact .inr small
  · rw [if_neg small] at capital
    exact .inl capital

theorem IsKeyword.isLetter {k : Keyword} {w : List Char} (spelled : IsKeyword k w) {c : Char} (member : c ∈ w) :
    IsLetter c := by
  have capitals : k.name.toList.all (fun d => 65 ≤ d.toNat ∧ d.toNat ≤ 90) = true := by cases k <;> decide
  have image : c.toUpper ∈ k.name.toList := spelled ▸ List.mem_map_of_mem member
  exact isLetter_of_toUpper (by simpa using List.all_eq_true.mp capitals _ image)

theorem IsKeyword.isWord {k : Keyword} {w : List Char} (spelled : IsKeyword k w) : IsWord w := by
  have filled : k.name.toList ≠ [] := by cases k <;> decide
  cases w with
  | nil => exact absurd spelled.symm filled
  | cons c cs => exact .mk (spelled.isLetter (by simp)) fun d member => .inl (spelled.isLetter (by simp [member]))

theorem ofName?_name (k : Keyword) : Keyword.ofName? k.name = some k := by
  cases k <;> decide

theorem ofName?_eq_some_iff {k : Keyword} {w : List Char} (word : IsWord w) :
    Keyword.ofName? (.ofList w) = some k ↔ IsKeyword k w := by
  have upper : Text.capitals (.ofList w) = .ofList (w.map Char.toUpper) :=
    Text.capitals_ofList fun c member => (word.all c member).ascii
  constructor
  · intro found
    have named : k.name = Text.capitals (.ofList w) := by simpa [Keyword.ofName?] using List.find?_some found
    have := congrArg String.toList (named.trans upper)
    simpa [IsKeyword] using this.symm
  · intro spelled
    have named : k.name = Text.capitals k.name := by cases k <;> decide
    have same : Text.capitals (.ofList w) = Text.capitals k.name := by
      rw [upper, spelled, String.ofList_toList, ← named]
    rw [Keyword.ofName?, same]
    exact ofName?_name k

theorem ofName?_eq_none_iff {w : List Char} (word : IsWord w) :
    Keyword.ofName? (.ofList w) = none ↔ ∀ k, ¬IsKeyword k w := by
  simp only [← ofName?_eq_some_iff word]
  cases Keyword.ofName? (.ofList w) <;> simp

/-- The text `w`, before `rest`, is a token of statement mode. -/
inductive Scans : Token → (w rest : List Char) → Prop
  | keyword {k : Keyword} {w rest : List Char} (spelled : IsKeyword k w) (stops : Stops IsWordChar rest) :
      Scans (.keyword k) w rest
  | word {w rest : List Char} (word : IsWord w) (plain : ∀ k, ¬IsKeyword k w)
      (stops : Stops IsWordChar rest) : Scans (.word (.ofList w)) w rest
  | symbol {c : Char} {rest : List Char} (other : c ∉ blanks) (alone : ¬IsLetter c) :
      Scans (.ofSymbol c) [c] rest

theorem span_of_stops {p : Char → Bool} {w rest : List Char} (inside : ∀ c ∈ w, p c = true)
    (stops : ∀ c ∈ rest.head?, p c = false) : Token.span p (w ++ rest) = (.ofList w, rest) := by
  rw [Token.span, takeWhile_of_stops inside stops, dropWhile_of_stops inside stops]

theorem Stops.continuesWord {rest : List Char} (stops : Stops IsWordChar rest) :
    ∀ c ∈ rest.head?, continuesWord c = false := fun c member =>
  continuesWord_eq_false_iff.mpr (stops c member)

theorem scan_word {w rest : List Char} (word : IsWord w) (stops : Stops IsWordChar rest) :
    Token.scan (w ++ rest) = (.ofWord (.ofList w), rest) := by
  have inside : ∀ c ∈ w, continuesWord c = true := fun c member => continuesWord_iff.mpr (word.all c member)
  have spanned := span_of_stops inside stops.continuesWord
  cases word with
  | @mk c cs first others =>
    have other : isSeparator c = false := isSeparator_eq_false_iff.mpr first.not_blank
    rw [List.cons_append] at spanned ⊢
    simp only [Token.scan, other, startsWord_iff.mpr first, spanned, if_true, Bool.false_eq_true, if_false,
      Prod.map_apply, id_eq]

theorem ofWord_eq_keyword {k : Keyword} {w : List Char} (spelled : IsKeyword k w) :
    Token.ofWord (.ofList w) = .keyword k := by
  rw [Token.ofWord, (ofName?_eq_some_iff spelled.isWord).mpr spelled]

theorem ofWord_eq_word {w : List Char} (word : IsWord w) (plain : ∀ k, ¬IsKeyword k w) :
    Token.ofWord (.ofList w) = .word (.ofList w) := by
  rw [Token.ofWord, (ofName?_eq_none_iff word).mpr plain]

theorem scan_of_scans {t : Token} {w rest : List Char} (h : Scans t w rest) :
    Token.scan (w ++ rest) = (t, rest) := by
  cases h with
  | keyword spelled stops => rw [scan_word spelled.isWord stops, ofWord_eq_keyword spelled]
  | word word plain stops => rw [scan_word word stops, ofWord_eq_word word plain]
  | symbol other alone =>
    rw [← isSeparator_eq_false_iff] at other
    rw [← startsWord_iff, Bool.not_eq_true] at alone
    simp [Token.scan, other, alone]

theorem scans_scan {c : Char} (other : c ∉ blanks) (cs : List Char) :
    ∃ w, c :: cs = w ++ (Token.scan (c :: cs)).2 ∧
      Scans (Token.scan (c :: cs)).1 w (Token.scan (c :: cs)).2 := by
  by_cases letter : IsLetter c
  · let w := (c :: cs).takeWhile continuesWord
    let rest := (c :: cs).dropWhile continuesWord
    have split : w ++ rest = c :: cs := List.takeWhile_append_dropWhile
    have word : IsWord w := by
      have first : continuesWord c = true := continuesWord_iff.mpr (.inl letter)
      have inside : ∀ d ∈ cs.takeWhile continuesWord, IsWordChar d := fun d member =>
        continuesWord_iff.mp (List.all_eq_true.mp List.all_takeWhile d member)
      simpa [w, first] using IsWord.mk letter inside
    have stops : Stops IsWordChar rest := fun d member =>
      continuesWord_eq_false_iff.mp (stops_dropWhile continuesWord (c :: cs) d member)
    have scanned := scan_word word stops
    rw [split] at scanned
    rw [scanned]
    refine ⟨w, split.symm, ?_⟩
    cases found : Keyword.ofName? (.ofList w) with
    | some k =>
      have spelled := (ofName?_eq_some_iff word).mp found
      rw [ofWord_eq_keyword spelled]
      exact .keyword spelled stops
    | none =>
      have plain := (ofName?_eq_none_iff word).mp found
      rw [ofWord_eq_word word plain]
      exact .word word plain stops
  · have spelled : Scans (.ofSymbol c) [c] cs := .symbol other letter
    have scanned := scan_of_scans spelled
    rw [List.singleton_append] at scanned
    rw [scanned]
    exact ⟨[c], rfl, spelled⟩

theorem Scans.ne_blank {t : Token} {w rest : List Char} (h : Scans t w rest) (s : String) : t ≠ .blank s := by
  cases h with
  | keyword | word => simp
  | symbol =>
    unfold Token.ofSymbol
    split <;> simp

theorem Scans.ne_endOfText {t : Token} {w rest : List Char} (h : Scans t w rest) : t ≠ .endOfText := by
  cases h with
  | keyword | word => simp
  | symbol =>
    unfold Token.ofSymbol
    split <;> simp

theorem Scans.head_not_blank {t : Token} {w rest : List Char} (h : Scans t w rest) :
    ∃ c cs, w = c :: cs ∧ c ∉ blanks := by
  have of_word {w : List Char} (word : IsWord w) : ∃ c cs, w = c :: cs ∧ c ∉ blanks := by
    cases word with
    | mk first => exact ⟨_, _, rfl, first.not_blank⟩
  cases h with
  | keyword spelled => exact of_word spelled.isWord
  | word word => exact of_word word
  | symbol other => exact ⟨_, _, rfl, other⟩

theorem next_eq (cs : List Char) :
    Reader.next ⟨none, cs⟩ =
      ((Token.scan (cs.dropWhile isSeparator)).1, ⟨none, (Token.scan (cs.dropWhile isSeparator)).2⟩) := by
  cases cs with
  | nil => rfl
  | cons c cs =>
    by_cases blank : isSeparator c = true
    · simp [Reader.next, Reader.scan, Token.scan, blank, Token.span]
    · have other : c ∉ blanks := by rwa [← isSeparator_iff]
      obtain ⟨w, _, spelled⟩ := scans_scan other cs
      rw [List.dropWhile_cons_of_neg blank]
      simp only [Reader.next, Reader.scan]
      split
      · rename_i s _ found
        exact absurd (congrArg Prod.fst found) (spelled.ne_blank s)
      · rfl

theorem isGap_takeWhile (cs : List Char) : IsGap (cs.takeWhile isSeparator) := fun c member =>
  isSeparator_iff.mp (List.all_eq_true.mp List.all_takeWhile c member)

theorem dropWhile_gap {gap w rest : List Char} (blank : IsGap gap) (head : ∃ c cs, w = c :: cs ∧ c ∉ blanks) :
    (gap ++ w ++ rest).dropWhile isSeparator = w ++ rest := by
  obtain ⟨c, cs, rfl, other⟩ := head
  rw [List.append_assoc]
  apply dropWhile_of_stops
  · exact fun d member => isSeparator_iff.mpr (blank d member)
  · intro d h
    cases h
    exact isSeparator_eq_false_iff.mpr other

theorem gap_of_dropWhile {cs tail : List Char} (found : cs.dropWhile isSeparator = tail) :
    (∃ gap, cs = gap ++ tail ∧ IsGap gap) ∧ ∀ c ∈ tail.head?, c ∉ blanks := by
  subst found
  refine ⟨⟨cs.takeWhile isSeparator, List.takeWhile_append_dropWhile.symm, isGap_takeWhile cs⟩, fun c member => ?_⟩
  exact isSeparator_eq_false_iff.mp (stops_dropWhile isSeparator cs c member)

theorem next_eq_iff {cs rest : List Char} {t : Token} (more : t ≠ .endOfText) :
    Reader.next ⟨none, cs⟩ = (t, ⟨none, rest⟩) ↔
      ∃ gap w, cs = gap ++ w ++ rest ∧ IsGap gap ∧ Scans t w rest := by
  rw [next_eq]
  constructor
  · intro h
    simp only [Prod.mk.injEq, Reader.mk.injEq, true_and] at h
    obtain ⟨rfl, rfl⟩ := h
    cases tail : cs.dropWhile isSeparator with
    | nil => simp [tail, Token.scan] at more
    | cons c ds =>
      obtain ⟨⟨gap, whole, blank⟩, other⟩ := gap_of_dropWhile tail
      obtain ⟨w, split, spelled⟩ := scans_scan (other c rfl) ds
      refine ⟨gap, w, ?_, blank, spelled⟩
      rw [List.append_assoc, ← split, whole]
  · intro h
    rcases h with ⟨gap, w, rfl, blank, spelled⟩
    rw [dropWhile_gap blank spelled.head_not_blank, scan_of_scans spelled]

theorem next_endOfText_iff {cs rest : List Char} :
    Reader.next ⟨none, cs⟩ = (.endOfText, ⟨none, rest⟩) ↔ IsGap cs ∧ rest = [] := by
  rw [next_eq]
  constructor
  · intro h
    simp only [Prod.mk.injEq, Reader.mk.injEq, true_and] at h
    cases tail : cs.dropWhile isSeparator with
    | nil =>
      obtain ⟨⟨gap, whole, blank⟩, -⟩ := gap_of_dropWhile tail
      rw [List.append_nil] at whole
      rw [tail] at h
      exact ⟨whole ▸ blank, h.2.symm⟩
    | cons c ds =>
      obtain ⟨-, other⟩ := gap_of_dropWhile tail
      obtain ⟨w, _, spelled⟩ := scans_scan (other c rfl) ds
      rw [tail] at h
      exact absurd h.1 spelled.ne_endOfText
  · intro h
    rcases h with ⟨blank, rfl⟩
    have tail : cs.dropWhile isSeparator = [] := by
      have all : (cs ++ []).dropWhile isSeparator = [] :=
        dropWhile_of_stops (fun c member => isSeparator_iff.mpr (blank c member)) (by simp)
      rwa [List.append_nil] at all
    rw [tail]
    rfl

theorem doubled_cons (c : Char) (cs : List Char) :
    doubled (c :: cs) = (if c = '\'' then ['\'', '\''] else [c]) ++ doubled cs := rfl

theorem quotedText_doubled (s : List Char) {after : List Char} (stops : Stops (· = '\'') after) :
    Token.quotedText (doubled s ++ '\'' :: after) = (s, some after) := by
  induction s with
  | nil =>
    cases after with
    | nil => rfl
    | cons d ds =>
      have other : d ≠ '\'' := stops d (by simp)
      simp [doubled, Token.quotedText, other]
  | cons c s ih =>
    rw [doubled_cons]
    by_cases quote : c = '\''
    · subst quote
      simp [Token.quotedText, ih]
    · simp [Token.quotedText, quote, ih]

theorem doubled_of_quotedText {cs s after : List Char} (h : Token.quotedText cs = (s, some after)) :
    cs = doubled s ++ '\'' :: after ∧ Stops (· = '\'') after := by
  fun_induction Token.quotedText cs generalizing s with
  | case1 => simp at h
  | case2 rest ih =>
    rcases tail : Token.quotedText rest with ⟨s', after'⟩
    simp only [tail, Prod.map_apply, id_eq, Prod.mk.injEq] at h
    obtain ⟨rfl, rfl⟩ := h
    obtain ⟨split, stops⟩ := ih tail
    exact ⟨by simp [doubled_cons, split], stops⟩
  | case3 rest alone =>
    simp only [Prod.mk.injEq, Option.some.injEq] at h
    obtain ⟨rfl, rfl⟩ := h
    refine ⟨rfl, ?_⟩
    intro d member quote
    cases rest with
    | nil => simp at member
    | cons e es =>
      simp only [List.head?_cons, Option.mem_def, Option.some.injEq] at member
      exact alone es rfl (by rw [member, quote])
  | case4 c rest _ other ih =>
    rcases tail : Token.quotedText rest with ⟨s', after'⟩
    simp only [tail, Prod.map_apply, id_eq, Prod.mk.injEq] at h
    obtain ⟨rfl, rfl⟩ := h
    obtain ⟨split, stops⟩ := ih tail
    exact ⟨by simp [doubled_cons, other, split], stops⟩

theorem scanValue_of_spells {l : Literal} {w rest : List Char} (h : Spells EndsPlain (.literal l) w rest) :
    Token.scanValue (w ++ rest) = (.value l.value, rest) := by
  cases h with
  | @quoted s _ stops =>
    have read := quotedText_doubled s.toList stops
    simp [Literal.written, Token.scanValue, isSeparator, Token.quotedLiteral, read, Literal.value]
  | @plain s _ filled bare inside stops =>
    have within : ∀ c ∈ s.toList, (!endsLiteral c) = true := fun c member => by
      simpa [endsLiteral_eq_false_iff] using inside c member
    have beyond : ∀ c ∈ rest.head?, (!endsLiteral c) = false := fun c member => by
      simpa [endsLiteral_iff] using stops c member
    have spanned := span_of_stops within beyond
    cases chars : s.toList with
    | nil => exact absurd chars filled
    | cons c cs =>
      have plain : ¬EndsPlain c := inside c (by simp [chars])
      have quote : c ≠ '\'' := by simpa [chars] using bare
      have text : String.ofList (c :: cs) = s := by rw [← chars, String.ofList_toList]
      simp only [EndsPlain, not_or, ← isSeparator_iff] at plain
      rw [chars] at spanned
      simp only [List.cons_append] at spanned
      simp [Literal.written, chars, Token.scanValue, plain, quote, spanned, Literal.value, text]

theorem spells_of_scanValue {c : Char} {cs rest : List Char} {s : String} (other : c ∉ blanks)
    (h : Token.scanValue (c :: cs) = (.value s, rest)) :
    ∃ l w, c :: cs = w ++ rest ∧ l.value = s ∧ Spells EndsPlain (.literal l) w rest := by
  have separator : isSeparator c = false := isSeparator_eq_false_iff.mpr other
  simp only [Token.scanValue, separator, Bool.false_eq_true, if_false] at h
  by_cases mark : c = ',' ∨ c = ';' ∨ c = ')'
  · rw [if_pos mark] at h
    rcases mark with rfl | rfl | rfl <;> simp [Token.ofSymbol] at h
  · rw [if_neg mark] at h
    by_cases quote : c = '\''
    · rw [if_pos quote, Token.quotedLiteral] at h
      rcases read : Token.quotedText cs with ⟨v, _ | after⟩ <;> simp only [read, Prod.mk.injEq] at h
      · simp at h
      · obtain ⟨⟨⟩, rfl⟩ := h
        obtain ⟨split, stops⟩ := doubled_of_quotedText read
        refine ⟨.quoted (.ofList v), _, ?_, rfl, .quoted stops⟩
        simp [Literal.written, quote, split]
    · rw [if_neg quote] at h
      simp only [Token.span, Prod.map_apply, id_eq, Prod.mk.injEq, Token.value.injEq] at h
      obtain ⟨rfl, rfl⟩ := h
      have starts : (!endsLiteral c) = true := by
        simp only [not_or] at mark
        simp [endsLiteral, separator, mark]
      let v := (c :: cs).takeWhile (!endsLiteral ·)
      have head : v = c :: cs.takeWhile (!endsLiteral ·) := List.takeWhile_cons_of_pos starts
      have written : (Literal.plain (.ofList v)).written = v := by simp [Literal.written]
      refine ⟨.plain (.ofList v), _, ?_, rfl, .plain ?_ ?_ ?_ ?_⟩
      · rw [written, List.takeWhile_append_dropWhile]
      · simp [head]
      · simp [head, quote]
      · intro d member
        have := List.all_eq_true.mp List.all_takeWhile d (by simpa using member)
        simpa [endsLiteral_eq_false_iff] using this
      · intro d member
        have := stops_dropWhile (!endsLiteral ·) (c :: cs) d member
        simpa [endsLiteral_iff] using this

theorem scanValue_ne_blank {c : Char} {cs : List Char} (other : c ∉ blanks) (s : String) :
    (Token.scanValue (c :: cs)).1 ≠ .blank s := by
  have separator : isSeparator c = false := isSeparator_eq_false_iff.mpr other
  simp only [Token.scanValue, separator, Bool.false_eq_true, if_false]
  split
  · rename_i mark
    rcases mark with rfl | rfl | rfl <;> simp [Token.ofSymbol]
  · split
    · rw [Token.quotedLiteral]
      split <;> simp
    · simp

theorem nextValue_eq (cs : List Char) :
    Reader.nextValue ⟨none, cs⟩ = .ok ((Token.scanValue (cs.dropWhile isSeparator)).1,
      ⟨none, (Token.scanValue (cs.dropWhile isSeparator)).2⟩) := by
  cases cs with
  | nil => rfl
  | cons c cs =>
    by_cases blank : isSeparator c = true
    · simp [Reader.nextValue, Reader.scanValue, Token.scanValue, blank, Token.span, bind, Except.bind]
    · have other : c ∉ blanks := by rwa [← isSeparator_iff]
      rw [List.dropWhile_cons_of_neg blank]
      simp only [Reader.nextValue, Reader.scanValue, bind, Except.bind]
      split
      · rename_i s _ found
        exact absurd (congrArg Prod.fst found) (scanValue_ne_blank other s)
      · rfl

theorem Spells.literal_head {l : Literal} {w rest : List Char} (h : Spells EndsPlain (.literal l) w rest) :
    ∃ c cs, w = c :: cs ∧ c ∉ blanks := by
  cases h with
  | quoted => exact ⟨_, _, rfl, by decide⟩
  | @plain s _ filled bare inside stops =>
    cases chars : s.toList with
    | nil => exact absurd chars filled
    | cons c cs =>
      have plain : ¬EndsPlain c := inside c (by simp [chars])
      simp only [EndsPlain, not_or] at plain
      exact ⟨c, cs, chars, plain.2.2.2⟩

theorem nextValue_value_iff {cs : List Char} {s : String} {r : Reader} :
    Reader.nextValue ⟨none, cs⟩ = .ok (.value s, r) ↔
      ∃ l rest, r = ⟨none, rest⟩ ∧ l.value = s ∧ Opens EndsPlain [.literal l] cs rest := by
  rw [nextValue_eq]
  constructor
  · intro h
    simp only [Except.ok.injEq, Prod.mk.injEq] at h
    obtain ⟨token, rfl⟩ := h
    cases tail : cs.dropWhile isSeparator with
    | nil => simp [tail, Token.scanValue] at token
    | cons c ds =>
      obtain ⟨⟨gap, whole, blank⟩, other⟩ := gap_of_dropWhile tail
      rw [tail] at token
      have scanned : Token.scanValue (c :: ds) = (.value s, (Token.scanValue (c :: ds)).2) := Prod.ext token rfl
      obtain ⟨l, w, split, value, spelled⟩ := spells_of_scanValue (other c rfl) scanned
      refine ⟨l, _, rfl, value, opens_singleton_iff.mpr ⟨gap, w, ?_, blank, spelled⟩⟩
      rw [List.append_assoc, ← split, whole]
  · intro h
    rcases h with ⟨l, rest, rfl, rfl, opens⟩
    obtain ⟨gap, w, rfl, blank, spelled⟩ := opens_singleton_iff.mp opens
    rw [dropWhile_gap blank spelled.literal_head, scanValue_of_spells spelled]

end RowBase.Sql.Grammar
