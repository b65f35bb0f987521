import RowBase.Proofs.Sql.Relexing

namespace RowBase.Sql.Grammar

/-- A text that can follow any other one without joining its last token: it starts with a blank, if it is not empty. -/
def Apart (cs : List Char) : Prop :=
  ∀ c ∈ cs.head?, c ∈ blanks

theorem Apart.append {cs ds : List Char} (first : Apart cs) (second : Apart ds) : Apart (cs ++ ds) := by
  cases cs with
  | nil => exact second
  | cons => exact first

theorem Stops.append {p : Char → Prop} {rest u : List Char} (stops : Stops p rest) (apart : Apart u)
    (other : ∀ c ∈ blanks, ¬p c) : Stops p (rest ++ u) := by
  cases rest with
  | nil => exact fun c member => other c (apart c member)
  | cons => exact stops

theorem not_isWordChar_of_blank {c : Char} (blank : c ∈ blanks) : ¬IsWordChar c := by
  simp only [blanks, List.mem_cons, List.not_mem_nil, or_false] at blank
  rcases blank with rfl | rfl | rfl | rfl <;> decide

theorem Scans.append {t : Token} {w rest u : List Char} (scans : Scans t w rest) (apart : Apart u) :
    Scans t w (rest ++ u) := by
  cases scans with
  | keyword spelled stops => exact .keyword spelled (stops.append apart fun _ => not_isWordChar_of_blank)
  | word word plain stops => exact .word word plain (stops.append apart fun _ => not_isWordChar_of_blank)
  | symbol solid alone => exact .symbol solid alone

theorem Scans.of_text {t : Token} {w rest : List Char} (scans : Scans t w rest) : Scans t t.text.toList [] := by
  have same : SameHead rest [] := by simp [SameHead]
  have lexes := (Lexes.solid scans).again same
  generalize t.text.toList = v at lexes
  cases lexes with
  | blank => exact absurd rfl (scans.ne_blank _)
  | solid again => exact again

theorem waiting_of_next {cs : List Char} {t : Token} {r : Reader} (token : Reader.next ⟨none, cs⟩ = (t, r)) :
    ∃ rest, r = ⟨none, rest⟩ := by
  rw [next_eq] at token
  exact ⟨_, (congrArg Prod.snd token).symm⟩

theorem next_append {cs mid u : List Char} {t : Token} (token : Reader.next ⟨none, cs⟩ = (t, ⟨none, mid⟩))
    (more : t ≠ .endOfText) (apart : Apart u) : Reader.next ⟨none, cs ++ u⟩ = (t, ⟨none, mid ++ u⟩) := by
  obtain ⟨gap, w, rfl, blank, scans⟩ := (next_eq_iff more).mp token
  exact (next_eq_iff more).mpr ⟨gap, w, by simp, blank, scans.append apart⟩

section Gaps

variable {gap : List Char} (blank : IsGap gap) (cs : List Char)

include blank

theorem dropWhile_gap_append : (gap ++ cs).dropWhile isSeparator = cs.dropWhile isSeparator :=
  List.dropWhile_append_of_pos fun c member => isSeparator_iff.mpr (blank c member)

theorem next_gap : Reader.next ⟨none, gap ++ cs⟩ = Reader.next ⟨none, cs⟩ := by
  rw [next_eq, next_eq, dropWhile_gap_append blank]

theorem nextValue_gap : Reader.nextValue ⟨none, gap ++ cs⟩ = Reader.nextValue ⟨none, cs⟩ := by
  rw [nextValue_eq, nextValue_eq, dropWhile_gap_append blank]

end Gaps

/-- What is blamed does not start with a blank, and is nothing only where nothing but blanks is left. -/
def Blamable (cs : List Char) (found : String) : Prop :=
  (∀ c ∈ found.toList.head?, c ∉ blanks) ∧ (found = "" → IsGap cs)

theorem blamable_of_head {cs us : List Char} {c : Char} {found : String} (shown : found.toList = c :: us)
    (solid : c ∉ blanks) : Blamable cs found := by
  constructor
  · intro d member
    rw [shown] at member
    cases member
    exact solid
  · intro none
    simp [none] at shown

theorem blamable_of_next {cs mid : List Char} {t : Token} (token : Reader.next ⟨none, cs⟩ = (t, ⟨none, mid⟩)) :
    Blamable cs t.text := by
  by_cases ended : t = .endOfText
  · subst ended
    exact ⟨by simp [Token.text], fun _ => (next_endOfText_iff.mp token).1⟩
  · obtain ⟨_, _, _, _, scans⟩ := (next_eq_iff ended).mp token
    obtain ⟨c, us, shown, solid⟩ := scans.of_text.head_not_blank
    exact blamable_of_head shown solid

section Combinators

variable {α β : Type}

/-- More text, after a blank, makes a text one that the parser reads to its end. -/
def CutShort (p : Parser α) (cs : List Char) : Prop :=
  ∃ t a, Apart t ∧ p ⟨none, cs ++ t⟩ = .ok (a, ⟨none, []⟩)

theorem CutShort.before {p q : Parser α} {cs rest : List Char} (short : CutShort p rest)
    (same : ∀ u, Apart u → q ⟨none, cs ++ u⟩ = p ⟨none, rest ++ u⟩) : CutShort q cs := by
  obtain ⟨t, a, apart, run⟩ := short
  exact ⟨t, a, apart, (same t apart).trans run⟩

theorem CutShort.of_append {p : Parser α} {cs u : List Char} (short : CutShort p (cs ++ u)) (apart : Apart u) :
    CutShort p cs := by
  obtain ⟨t, a, apart', run⟩ := short
  rw [List.append_assoc] at run
  exact ⟨u ++ t, a, apart.append apart', run⟩

/-- A parser that blames no blank, and the end only of texts that are cut short. -/
structure Honest (p : Parser α) : Prop where
  reads : ∀ {cs a r}, p ⟨none, cs⟩ = .ok (a, r) →
    ∃ rest, r = ⟨none, rest⟩ ∧ ∀ u, Apart u → p ⟨none, cs ++ u⟩ = .ok (a, ⟨none, rest ++ u⟩)
  blames : ∀ {cs found expected}, p ⟨none, cs⟩ = .error (.unexpected found expected) →
    (∀ c ∈ found.toList.head?, c ∉ blanks) ∧ (found = "" → CutShort p cs)
  starts : CutShort p []

theorem honest_pure (a : α) : Honest (pure a : Parser α) where
  reads := by
    intro cs b r run
    obtain ⟨rfl, rfl⟩ := StateT.pure_eq_ok_iff.mp run
    exact ⟨cs, rfl, fun u _ => rfl⟩
  blames := by
    intro cs found expected run
    cases run
  starts := ⟨[], a, by simp [Apart], rfl⟩

theorem CutShort.bind {p : Parser α} {f : α → Parser β} {cs : List Char} (first : CutShort p cs) (honest : Honest p)
    (second : ∀ a, CutShort (f a) []) : CutShort (p >>= f) cs := by
  obtain ⟨t, a, apart, run⟩ := first
  obtain ⟨u, b, apart', run'⟩ := second a
  obtain ⟨rest, same, more⟩ := honest.reads run
  cases same
  refine ⟨t ++ u, b, apart.append apart', ?_⟩
  rw [← List.append_assoc]
  exact StateT.bind_eq_ok_iff.mpr ⟨a, _, more u apart', run'⟩

theorem Honest.bind {p : Parser α} {f : α → Parser β} (first : Honest p) (second : ∀ a, Honest (f a)) :
    Honest (p >>= f) where
  reads := by
    intro cs b r run
    obtain ⟨a, mid, run, run'⟩ := StateT.bind_eq_ok_iff.mp run
    obtain ⟨middle, rfl, more⟩ := first.reads run
    obtain ⟨rest, rfl, more'⟩ := (second a).reads run'
    exact ⟨rest, rfl, fun u apart => StateT.bind_eq_ok_iff.mpr ⟨a, _, more u apart, more' u apart⟩⟩
  blames := by
    intro cs found expected run
    rcases StateT.bind_eq_error_iff.mp run with failed | ⟨a, mid, run, failed⟩
    · obtain ⟨solid, short⟩ := first.blames failed
      exact ⟨solid, fun ended => (short ended).bind first fun a => (second a).starts⟩
    · obtain ⟨middle, rfl, more⟩ := first.reads run
      obtain ⟨solid, short⟩ := (second a).blames failed
      exact ⟨solid, fun ended => (short ended).before fun u apart => StateT.bind_of_ok f (more u apart)⟩
  starts := first.starts.bind first fun a => (second a).starts

theorem Honest.congr {p q : Parser α} (honest : Honest p) (same : ∀ cs, q ⟨none, cs⟩ = p ⟨none, cs⟩) : Honest q where
  reads := by
    simp only [same]
    exact honest.reads
  blames := by
    simp only [CutShort, same]
    exact honest.blames
  starts := by
    simp only [CutShort, same]
    exact honest.starts

/-- What a parser does with the token that it has read: it goes on, or it blames the token. -/
inductive Answers (t : Token) : Parser α → Prop
  | goesOn {p : Parser α} (more : t ≠ .endOfText) (honest : Honest p) : Answers t p
  | blames (expected : String) : Answers t (Parser.blame t expected)

theorem next_bind_append {f : Token → Parser α} {cs mid u : List Char} {t : Token}
    (token : Reader.next ⟨none, cs⟩ = (t, ⟨none, mid⟩)) (more : t ≠ .endOfText) (apart : Apart u) :
    (Parser.next >>= f) ⟨none, cs ++ u⟩ = f t ⟨none, mid ++ u⟩ :=
  StateT.bind_of_ok f (congrArg Except.ok (next_append token more apart))

theorem honest_next {f : Token → Parser α} {t : Token} (answers : ∀ t, Answers t (f t)) (goesOn : Honest (f t))
    (written : Reader.next ⟨none, ' ' :: t.text.toList⟩ = (t, ⟨none, []⟩)) (more : t ≠ .endOfText) :
    Honest (Parser.next >>= f) := by
  -- Where only blanks are left, the token that is gone on with completes the text.
  have completes {cs : List Char} (blank : IsGap cs) : CutShort (Parser.next >>= f) cs := by
    rw [← next_gap blank] at written
    have longer : CutShort (Parser.next >>= f) (cs ++ ' ' :: t.text.toList) :=
      goesOn.starts.before fun u apart => next_bind_append written more apart
    exact longer.of_append (by simp [Apart, blanks])
  constructor
  · intro cs a r run
    obtain ⟨t', mid, token, run⟩ := next_bind_eq_ok_iff.mp run
    have answer := answers t'
    generalize found : f t' = p at answer run
    cases answer with
    | goesOn more honest =>
      obtain ⟨rest, rfl, kept⟩ := honest.reads run
      refine ⟨rest, rfl, fun u apart => ?_⟩
      rw [next_bind_append token more apart, found, kept u apart]
    | blames => exact absurd run blame_ne_ok
  · intro cs found expected run
    rcases StateT.bind_eq_error_iff.mp run with ⟨⟨⟩⟩ | ⟨t', r, token, failed⟩
    have token : Reader.next ⟨none, cs⟩ = (t', r) := Except.ok.inj token
    obtain ⟨mid, rfl⟩ := waiting_of_next token
    have answer := answers t'
    generalize found : f t' = p at answer failed
    cases answer with
    | goesOn more honest =>
      obtain ⟨solid, short⟩ := honest.blames failed
      refine ⟨solid, fun ended => (short ended).before fun u apart => ?_⟩
      rw [next_bind_append token more apart, found]
    | blames =>
      cases failed
      obtain ⟨solid, ended⟩ := blamable_of_next token
      exact ⟨solid, fun none => completes (ended none)⟩
  · exact completes (by simp [IsGap])

end Combinators

theorem honest_expect {t : Token} (written : Reader.next ⟨none, ' ' :: t.text.toList⟩ = (t, ⟨none, []⟩))
    (more : t ≠ .endOfText) : Honest (Parser.expect t) := by
  refine honest_next (fun found => ?_) ?_ written more
  · split
    · rename_i same
      exact .goesOn (same ▸ more) (honest_pure ())
    · exact .blames t.text
  · rw [if_pos rfl]
    exact honest_pure ()

theorem honest_keyword (k : Keyword) : Honest (Parser.expect (.keyword k)) :=
  honest_expect (by cases k <;> rfl) (by simp)

theorem honest_opening : Honest (Parser.expect .opening) :=
  honest_expect (by rfl) (by simp)

theorem honest_semicolon : Honest (Parser.expect .semicolon) :=
  honest_expect (by rfl) (by simp)

theorem honest_name (expected : String) : Honest (Parser.name expected) := by
  refine @honest_next _ _ (.word "a") (fun t => ?_) (honest_pure "a") (by rfl) (by simp)
  split
  · exact .goesOn (by simp) (honest_pure _)
  · split
    · exact .blames expected
    · exact .goesOn (by simp) (honest_pure _)
  · exact .blames expected

theorem honest_typeName : Honest Parser.typeName := by
  refine @honest_next _ _ (.word "a") (fun t => ?_) (honest_pure "a") (by rfl) (by simp)
  split
  · exact .goesOn (by simp) (honest_pure _)
  · split
    · exact .goesOn (by simp) (honest_pure _)
    · exact .blames "column type"
  · exact .blames "column type"

theorem honest_columnDefinition : Honest Parser.columnDefinition :=
  (honest_name _).bind fun _ => honest_typeName.bind fun _ => honest_pure _

theorem text_of_scanValue {c : Char} {cs : List Char} (solid : c ∉ blanks)
    (other : ∀ s, (Token.scanValue (c :: cs)).1 ≠ .value s) :
    ∃ us, (Token.scanValue (c :: cs)).1.text.toList = c :: us := by
  have separator : isSeparator c = false := isSeparator_eq_false_iff.mpr solid
  simp only [Token.scanValue, separator, Bool.false_eq_true, if_false] at other ⊢
  split
  · exact ⟨[], toList_text_ofSymbol c⟩
  · rename_i mark
    rw [if_neg mark] at other
    split
    · rename_i quote
      rw [if_pos quote] at other
      unfold Token.quotedLiteral at other ⊢
      split
      · rename_i read
        simp [read] at other
      · exact ⟨_, by rw [quote]; exact String.toList_ofList⟩
    · rename_i quote
      rw [if_neg quote] at other
      exact absurd rfl (other _)

theorem blamable_of_nextValue {cs : List Char} {t : Token} {r : Reader}
    (token : Reader.nextValue ⟨none, cs⟩ = .ok (t, r)) (other : ∀ s, t ≠ .value s) : Blamable cs t.text := by
  rw [nextValue_eq] at token
  cases token
  cases tail : cs.dropWhile isSeparator with
  | nil =>
    obtain ⟨⟨gap, whole, blank⟩, -⟩ := gap_of_dropWhile tail
    rw [List.append_nil] at whole
    exact ⟨by simp [Token.scanValue, Token.text], fun _ => whole ▸ blank⟩
  | cons c ds =>
    have solid : c ∉ blanks := (gap_of_dropWhile tail).2 c rfl
    rw [tail] at other
    obtain ⟨us, shown⟩ := text_of_scanValue solid other
    exact blamable_of_head shown solid

theorem Opens.append_literal {l : Literal} {cs rest u : List Char} (opens : Opens EndsPlain [.literal l] cs rest)
    (apart : Apart u) : Opens EndsPlain [.literal l] (cs ++ u) (rest ++ u) := by
  obtain ⟨gap, w, rfl, blank, spelled⟩ := opens_singleton_iff.mp opens
  refine opens_singleton_iff.mpr ⟨gap, w, by simp, blank, ?_⟩
  cases spelled with
  | quoted stops => exact .quoted (stops.append apart (by simp [blanks]))
  | plain filled bare inside stops =>
    exact .plain filled bare inside (stops.append apart fun c blank => not_not_intro (.inr (.inr (.inr blank))))

theorem literal_of_gap {gap : List Char} (blank : IsGap gap) : CutShort Parser.literal gap := by
  have token : Reader.nextValue ⟨none, gap ++ " 0".toList⟩ = .ok (.value "0", ⟨none, []⟩) := by
    rw [nextValue_gap blank]
    rfl
  exact ⟨" 0".toList, "0", by simp [Apart, blanks], StateT.bind_eq_ok_iff.mpr ⟨_, _, token, rfl⟩⟩

theorem honest_literal : Honest Parser.literal where
  reads := by
    intro cs s r run
    obtain ⟨ls, rest, rfl, ⟨l, value, rfl⟩, opens⟩ := (reads_literal _ _ _).mp run
    refine ⟨rest, rfl, fun u apart => (reads_literal _ _ _).mpr ⟨_, _, rfl, ⟨l, value, rfl⟩, ?_⟩⟩
    exact opens.append_literal apart
  blames := by
    intro cs found expected run
    rcases StateT.bind_eq_error_iff.mp run with failed | ⟨t, r, token, failed⟩
    · rw [Parser.nextValue, nextValue_eq] at failed
      cases failed
    · split at failed
      · cases failed
      · rename_i other
        cases failed
        obtain ⟨solid, ended⟩ := blamable_of_nextValue token other
        exact ⟨solid, fun none => literal_of_gap (ended none)⟩
  starts := literal_of_gap (by simp [IsGap])

section Items

variable {α : Type} {item : Parser α} {bounded : Parser.Bounded item}

theorem apart_closing : Apart " )".toList := by
  simp [Apart, blanks]

theorem CutShort.items {cs : List Char} (short : CutShort item cs) (honest : Honest item) :
    CutShort (Parser.items item bounded) cs := by
  obtain ⟨t, a, apart, run⟩ := short
  obtain ⟨rest, same, more⟩ := honest.reads run
  cases same
  refine ⟨t ++ " )".toList, [a], apart.append apart_closing, ?_⟩
  rw [← List.append_assoc]
  exact items_closing (more _ apart_closing) (by rfl)

theorem items_append (honest : Honest item) {cs : List Char} {as : List α} {r : Reader}
    (run : Parser.items item bounded ⟨none, cs⟩ = .ok (as, r)) :
    ∃ rest, r = ⟨none, rest⟩ ∧
      ∀ u, Apart u → Parser.items item bounded ⟨none, cs ++ u⟩ = .ok (as, ⟨none, rest ++ u⟩) := by
  generalize start : (⟨none, cs⟩ : Reader) = r₀ at run
  fun_induction Parser.items item bounded r₀ generalizing cs as r with
  | case1 => simp at run
  | case2 r₀ a mid read next token =>
    cases run
    subst start
    obtain ⟨middle, rfl, more⟩ := honest.reads read
    obtain ⟨rest, rfl⟩ := waiting_of_next token
    refine ⟨rest, rfl, fun u apart => ?_⟩
    exact items_closing (more u apart) (next_append token (by simp) apart)
  | case3 r₀ a mid read next token ih =>
    subst start
    obtain ⟨middle, rfl, more⟩ := honest.reads read
    obtain ⟨after, rfl⟩ := waiting_of_next token
    cases tail : Parser.items item bounded ⟨none, after⟩ with
    | error e => simp [tail, Except.map] at run
    | ok ar =>
      rcases ar with ⟨others, r'⟩
      simp only [tail, Except.map, Except.ok.injEq, Prod.mk.injEq] at run
      obtain ⟨rfl, rfl⟩ := run
      obtain ⟨rest, rfl, more'⟩ := ih rfl tail
      refine ⟨rest, rfl, fun u apart => ?_⟩
      exact items_comma (more u apart) (next_append token (by simp) apart) (more' u apart)
  | case4 => simp at run

theorem items_blame (honest : Honest item) {cs : List Char} {found expected : String}
    (refused : Parser.items item bounded ⟨none, cs⟩ = .error (.unexpected found expected)) :
    (∀ c ∈ found.toList.head?, c ∉ blanks) ∧ (found = "" → CutShort (Parser.items item bounded) cs) := by
  generalize start : (⟨none, cs⟩ : Reader) = r₀ at refused
  -- What completes the items from where one of them was refused completes them from the first one on.
  fun_induction Parser.items item bounded r₀ generalizing cs with
  | case1 r₀ e failed =>
    cases refused
    subst start
    obtain ⟨solid, short⟩ := honest.blames failed
    exact ⟨solid, fun ended => (short ended).items honest⟩
  | case2 => simp at refused
  | case3 r₀ a mid read next token ih =>
    subst start
    obtain ⟨middle, rfl, more⟩ := honest.reads read
    obtain ⟨after, rfl⟩ := waiting_of_next token
    cases tail : Parser.items item bounded ⟨none, after⟩ with
    | ok ar => simp [tail, Except.map] at refused
    | error e =>
      simp only [tail, Except.map, Except.error.injEq] at refused
      subst refused
      obtain ⟨solid, short⟩ := ih rfl tail
      refine ⟨solid, fun ended => ?_⟩
      obtain ⟨t, as, apart, run⟩ := short ended
      exact ⟨t, _, apart, items_comma (more t apart) (next_append token (by simp) apart) run⟩
  | case4 r₀ a mid read t after _ _ token =>
    cases refused
    subst start
    obtain ⟨middle, rfl, more⟩ := honest.reads read
    obtain ⟨rest, rfl⟩ := waiting_of_next token
    obtain ⟨solid, ended⟩ := blamable_of_next token
    refine ⟨solid, fun none => ⟨" )".toList, [a], apart_closing, items_closing (more _ apart_closing) ?_⟩⟩
    rw [next_gap (ended none)]
    rfl

theorem honest_items (honest : Honest item) : Honest (Parser.items item bounded) where
  reads := items_append honest
  blames := items_blame honest
  starts := honest.starts.items honest

end Items

theorem honest_namedColumns : Honest (Parser.names >>= fun names => pure (Columns.named names)) :=
  (honest_items (honest_name _)).bind fun _ => honest_pure _

theorem honest_insertColumns :
    Honest (do let columns ← Parser.insertColumns; Parser.expect (.keyword .values); return columns) := by
  have named := honest_namedColumns.bind fun columns =>
    (honest_keyword .values).bind fun _ => honest_pure columns
  rw [Parser.insertColumns, bind_assoc]
  refine @honest_next _ _ .opening (fun t => ?_) named (by rfl) (by simp)
  split
  · refine .goesOn (by simp) ((honest_pure Columns.all).congr fun cs => ?_)
    have handed : Parser.handBack (.keyword .values) ⟨none, cs⟩ = .ok ((), ⟨some (.keyword .values), cs⟩) := rfl
    rw [bind_assoc, StateT.bind_of_ok _ handed, pure_bind]
    exact StateT.bind_of_ok _ (expect_waiting (by simp) cs)
  · exact .goesOn (by simp) named
  · exact .blames "( or VALUES"

theorem honest_selectColumns : Honest Parser.selectColumns := by
  refine @honest_next _ _ .asterisk (fun t => ?_) (honest_pure _) (by rfl) (by simp)
  split
  · exact .goesOn (by simp) (honest_pure _)
  · exact .goesOn (by simp) honest_namedColumns
  · exact .blames "* or ("

theorem honest_literals : Honest Parser.literals :=
  honest_items honest_literal

theorem honest_columnDefinitions : Honest Parser.columnDefinitions :=
  honest_items honest_columnDefinition

theorem honest_insert : Honest Parser.insert := by
  have honest := (honest_keyword .into).bind fun _ => (honest_name "table name").bind fun table =>
    honest_insertColumns.bind fun columns => honest_opening.bind fun _ => honest_literals.bind fun values =>
      honest_semicolon.bind fun _ => honest_pure (⟨table, columns, values⟩ : Insert)
  simp only [bind_assoc, pure_bind] at honest
  exact honest

theorem honest_select : Honest Parser.select :=
  honest_selectColumns.bind fun columns => (honest_keyword .from).bind fun _ =>
    (honest_name "table name").bind fun table => honest_semicolon.bind fun _ =>
      honest_pure (⟨table, columns⟩ : Select)

theorem honest_createTable : Honest Parser.createTable :=
  (honest_keyword .table).bind fun _ => (honest_name "table name").bind fun table =>
    honest_opening.bind fun _ => honest_columnDefinitions.bind fun columns =>
      honest_semicolon.bind fun _ => honest_pure (⟨table, columns⟩ : CreateTable)

theorem honest_statement : Honest Parser.statement := by
  have select := honest_select.bind fun q => honest_pure (Statement.select q)
  refine @honest_next _ _ (.keyword .select) (fun t => ?_) select (by rfl) (by simp)
  split
  · exact .goesOn (by simp) (honest_insert.bind fun i => honest_pure (Statement.insert i))
  · exact .goesOn (by simp) select
  · exact .goesOn (by simp) (honest_createTable.bind fun c => honest_pure (Statement.createTable c))
  · exact .blames "INSERT, SELECT or CREATE"

theorem CutShort.wholeStatement {cs : List Char} (short : CutShort Parser.statement cs) :
    ∃ t s r, Parser.wholeStatement ⟨none, cs ++ t⟩ = .ok (s, r) := by
  obtain ⟨t, s, -, run⟩ := short
  exact ⟨t, s, ⟨none, []⟩, StateT.bind_eq_ok_iff.mpr ⟨s, _, run, rfl⟩⟩

theorem wholeStatement_blames {cs : List Char} {found expected : String}
    (refused : Parser.wholeStatement ⟨none, cs⟩ = .error (.unexpected found expected)) :
    (found = "" → CutShort Parser.statement cs) ∧ ∀ c ∈ found.toList.head?, c ∉ blanks := by
  rcases StateT.bind_eq_error_iff.mp refused with failed | ⟨s, r, run, failed⟩
  · exact (honest_statement.blames failed).symm
  · obtain ⟨rest, rfl, -⟩ := honest_statement.reads run
    rcases StateT.bind_eq_error_iff.mp failed with ⟨⟨⟩⟩ | ⟨t, r, token, failed⟩
    have token : Reader.next ⟨none, rest⟩ = (t, r) := Except.ok.inj token
    obtain ⟨mid, rfl⟩ := waiting_of_next token
    split at failed
    · cases failed
    · rename_i more
      cases failed
      obtain ⟨solid, ended⟩ := blamable_of_next token
      -- Something stands after the statement, so it is not the end that is blamed.
      refine ⟨fun none => absurd ?_ more, solid⟩
      rw [next_endOfText_iff.mpr ⟨ended none, rfl⟩] at token
      exact (congrArg Prod.fst token).symm

theorem parse_ofList {cs : List Char} {s : Statement} {r : Reader}
    (run : Parser.wholeStatement ⟨none, cs⟩ = .ok (s, r)) : Statement.parse (.ofList cs) = .ok s := by
  rw [parse_eq, String.toList_ofList, run]
  rfl

end Grammar

/-- A text is refused at its end only if it is cut short: a statement can be read from it with some more text after it.
What is blamed otherwise does not start with a blank. -/
theorem Statement.parse_blames_honestly {sql found expected : String}
    (refused : Statement.parse sql = .error (.unexpected found expected)) :
    (found = "" → ∃ t s, Statement.parse (sql ++ t) = .ok s) ∧ ∀ c ∈ found.toList.head?, c ∉ Grammar.blanks := by
  have failed : Parser.wholeStatement ⟨none, sql.toList⟩ = .error (.unexpected found expected) := by
    rw [Grammar.parse_eq] at refused
    cases run : Parser.wholeStatement ⟨none, sql.toList⟩ with
    | ok sr => simp [run, Except.map] at refused
    | error e => simpa [run, Except.map] using refused
  obtain ⟨short, solid⟩ := Grammar.wholeStatement_blames failed
  refine ⟨fun ended => ?_, solid⟩
  obtain ⟨t, s, r, run⟩ := (short ended).wholeStatement
  refine ⟨.ofList t, s, ?_⟩
  have parsed := Grammar.parse_ofList run
  rwa [String.ofList_append, String.ofList_toList] at parsed

theorem Statement.parse_blames_honestly_quoted :
    Statement.parse "INSERT INTO t VALUES ('it''s'" = .error (.unexpected "" ", or )") ∧
    (∃ t s, Statement.parse ("INSERT INTO t VALUES ('it''s'" ++ t) = .ok s) ∧
    Statement.parse "INSERT INTO t VALUES ('it''s' \t'" = .error (.unexpected "'" ", or )") ∧
    ∀ c ∈ "'".toList.head?, c ∉ Grammar.blanks := by
  have ended : Statement.parse "INSERT INTO t VALUES ('it''s'" = .error (.unexpected "" ", or )") := by cbv
  have blamed : Statement.parse "INSERT INTO t VALUES ('it''s' \t'" = .error (.unexpected "'" ", or )") := by cbv
  exact ⟨ended, (parse_blames_honestly ended).1 rfl, blamed, (parse_blames_honestly blamed).2⟩

end RowBase.Sql
