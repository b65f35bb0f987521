import RowBase.Proofs.Sql.Classification
import RowBase.Proofs.Sql.Relexing

namespace RowBase

namespace Sql

def Token.isBlank : Token → Bool
  | blank _ => true
  | _ => false

def Token.leading? (cs : List Char) : Option Token :=
  (tokens cs).find? (!·.isBlank)

namespace Grammar

theorem Scans.isBlank {t : Token} {w rest : List Char} (scans : Scans t w rest) : t.isBlank = false := by
  cases t with
  | blank s => exact absurd rfl (scans.ne_blank s)
  | _ => rfl

theorem leading?_nil : Token.leading? [] = none := by
  rw [Token.leading?, tokens_nil]
  rfl

theorem leading?_of_scans {t : Token} {w rest : List Char} (scans : Scans t w rest) :
    Token.leading? (w ++ rest) = some t := by
  rw [Token.leading?, tokens_of_lexes (.solid scans)]
  exact List.find?_cons_of_pos (by simp [scans.isBlank])

theorem leading?_gap {gap rest : List Char} (blank : IsGap gap) (stops : Stops (· ∈ blanks) rest) :
    Token.leading? (gap ++ rest) = Token.leading? rest := by
  cases gap with
  | nil => rfl
  | cons c gap =>
    rw [Token.leading?, tokens_of_lexes (.blank (by simp) blank stops)]
    exact List.find?_cons_of_neg (by simp [Token.isBlank])

theorem leading?_eq_some_iff {cs : List Char} {t : Token} :
    Token.leading? cs = some t ↔ ∃ gap w rest, cs = gap ++ w ++ rest ∧ IsGap gap ∧ Scans t w rest := by
  have skipped {gap w rest : List Char} {t : Token} (blank : IsGap gap) (scans : Scans t w rest) :
      Token.leading? (gap ++ w ++ rest) = some t := by
    obtain ⟨c, ds, rfl, other⟩ := scans.head_not_blank
    rw [List.append_assoc, leading?_gap blank (by simpa [Stops] using other), leading?_of_scans scans]
  constructor
  · intro found
    obtain ⟨⟨gap, whole, blank⟩, other⟩ := @gap_of_dropWhile cs _ rfl
    cases tail : cs.dropWhile isSeparator with
    | nil =>
      rw [tail] at whole
      rw [whole, leading?_gap blank (by simp [Stops]), leading?_nil] at found
      cases found
    | cons c ds =>
      rw [tail] at whole other
      obtain ⟨w, split, scans⟩ := scans_scan (other c rfl) ds
      rw [split, ← List.append_assoc] at whole
      have same := skipped blank scans
      rw [← whole, found, Option.some.injEq] at same
      exact ⟨gap, w, _, whole, blank, same ▸ scans⟩
  · intro h
    obtain ⟨gap, w, rest, rfl, blank, scans⟩ := h
    exact skipped blank scans

end Grammar

end Sql

namespace StatementKind

open Sql.Grammar

/-- The token that a statement of a kind starts with: a keyword, or the word that takes its place for the statements
that have no grammar. -/
inductive Leads : StatementKind → Sql.Token → Prop
  | insert : Leads .insert (.keyword .insert)
  | select : Leads .select (.keyword .select)
  | create : Leads .create (.keyword .create)
  | update {s : String} (spelled : s.toList.map Char.toUpper = "UPDATE".toList) : Leads .update (.word s)
  | delete {s : String} (spelled : s.toList.map Char.toUpper = "DELETE".toList) : Leads .delete (.word s)

def Told (kind : StatementKind) (sql : String) : Prop :=
  ∃ t, Sql.Token.leading? sql.toList = some t ∧ kind.Leads t

/-- The letters of a keyword begin a text, but are not its first word: the word goes on with a digit or an underscore,
or a blank stands before it that does not separate tokens. -/
inductive Misread (kind : StatementKind) (sql : String) : Prop
  | joined {gap w : List Char} {c : Char} {rest : List Char} (begins : kind.Begins gap w (c :: rest) sql.toList)
      (longer : ('0' ≤ c ∧ c ≤ '9') ∨ c = '_') : Misread kind sql
  | behind {gap w rest : List Char} {c : Char} (begins : kind.Begins gap w rest sql.toList) (member : c ∈ gap)
      (solid : c ∉ blanks) : Misread kind sql

variable {kind : StatementKind} {sql : String} {w rest : List Char}

theorem Leads.spelled {t : Sql.Token} (leads : kind.Leads t) (scans : Scans t w rest) :
    w.map Char.toUpper = kind.keyword.toList ∧ Stops IsWordChar rest := by
  have of_keyword {k : Sql.Keyword} (named : k.name = kind.keyword) (scans : Scans (.keyword k) w rest) :
      w.map Char.toUpper = kind.keyword.toList ∧ Stops IsWordChar rest := by
    cases scans_keyword_iff.mp scans with
    | keyword spelled stops => exact ⟨named ▸ spelled, stops⟩
  cases leads with
  | insert | select | create => exact of_keyword rfl scans
  | update spelled | delete spelled =>
    obtain ⟨rfl, -, -, stops⟩ := scans_word_iff.mp scans
    rw [String.toList_ofList] at spelled
    exact ⟨spelled, stops⟩

theorem exists_leads {gap text : List Char} (begins : kind.Begins gap w rest text) (stops : Stops IsWordChar rest) :
    ∃ t, kind.Leads t ∧ Scans t w rest := by
  have spelled := begins.spelled
  have word : IsWord w := by
    obtain ⟨c, cs, rfl⟩ := List.exists_cons_of_ne_nil begins.filled
    exact .mk (begins.isLetter (by simp)) fun d member => .inl (begins.isLetter (by simp [member]))
  have of_word (other : ∀ k : Sql.Keyword, k.name ≠ kind.keyword) : Scans (.word (.ofList w)) w rest := by
    refine .word word (fun k named => other k ?_) stops
    have names : k.name.toList = kind.keyword.toList := named.symm.trans spelled
    exact String.toList_inj.mp names
  cases kind with
  | insert => exact ⟨_, .insert, .keyword (k := .insert) spelled stops⟩
  | select => exact ⟨_, .select, .keyword (k := .select) spelled stops⟩
  | create => exact ⟨_, .create, .keyword (k := .create) spelled stops⟩
  | update => exact ⟨_, .update (by rwa [String.toList_ofList]), of_word fun k => by cases k <;> decide⟩
  | delete => exact ⟨_, .delete (by rwa [String.toList_ofList]), of_word fun k => by cases k <;> decide⟩

theorem told_iff : kind.Told sql ↔
    ∃ gap w rest, kind.Begins gap w rest sql.toList ∧ IsGap gap ∧ Stops IsWordChar rest := by
  constructor
  · intro told
    obtain ⟨t, found, leads⟩ := told
    obtain ⟨gap, w, rest, split, blank, scans⟩ := leading?_eq_some_iff.mp found
    obtain ⟨spelled, stops⟩ := leads.spelled scans
    have begins : kind.Begins gap w rest sql.toList :=
      ⟨split, fun c member => isBlank_of_mem_blanks (blank c member), spelled, fun c member letter =>
        stops c member (.inl letter)⟩
    exact ⟨gap, w, rest, begins, blank, stops⟩
  · intro h
    obtain ⟨gap, w, rest, begins, blank, stops⟩ := h
    obtain ⟨t, leads, scans⟩ := exists_leads begins stops
    exact ⟨t, leading?_eq_some_iff.mpr ⟨gap, w, rest, begins.split, blank, scans⟩, leads⟩

theorem misread_iff : kind.Misread sql ↔
    ∃ gap w rest, kind.Begins gap w rest sql.toList ∧ (¬IsGap gap ∨ ¬Stops IsWordChar rest) := by
  constructor
  · intro misread
    cases misread with
    | joined begins longer => exact ⟨_, _, _, begins, .inr fun stops => stops _ rfl (.inr longer)⟩
    | behind begins member solid => exact ⟨_, _, _, begins, .inl fun blank => solid (blank _ member)⟩
  · intro h
    obtain ⟨gap, w, rest, begins, other | goesOn⟩ := h
    · simp only [IsGap, not_forall] at other
      obtain ⟨c, member, solid⟩ := other
      exact .behind begins member solid
    · simp only [Stops, not_forall, not_not] at goesOn
      obtain ⟨c, head, letter | longer⟩ := goesOn
      · exact absurd letter (begins.stops c head)
      · obtain ⟨ds, rfl⟩ : ∃ ds, rest = c :: ds := List.head?_eq_some_iff.mp head
        exact .joined begins longer

/-- The dispatcher tells the kind that the first token tells, and no other except where it misreads a text. It does so
exactly where a word goes on behind the letters of the keyword, or stands behind a blank that separates no tokens. -/
theorem kind_told_or_misread (sql : String) (kind : StatementKind) :
    (ofText? sql = some kind ↔ kind.Told sql ∨ kind.Misread sql) ∧ ¬(kind.Told sql ∧ kind.Misread sql) := by
  rw [ofText?_eq_some_iff, told_iff, misread_iff]
  refine ⟨⟨fun h => ?_, fun h => ?_⟩, fun both => ?_⟩
  · obtain ⟨gap, w, rest, begins⟩ := h
    by_cases clean : IsGap gap ∧ Stops IsWordChar rest
    · exact .inl ⟨gap, w, rest, begins, clean⟩
    · exact .inr ⟨gap, w, rest, begins, not_and_or.mp clean⟩
  · rcases h with ⟨gap, w, rest, begins, -⟩ | ⟨gap, w, rest, begins, -⟩ <;> exact ⟨gap, w, rest, begins⟩
  · obtain ⟨⟨gap, w, rest, begins, blank, stops⟩, _, _, _, begins', dirty⟩ := both
    obtain ⟨rfl, rfl, rfl⟩ := begins.unique begins'
    rcases dirty with other | goesOn
    · exact other blank
    · exact goesOn stops

/-- A word that only starts like a keyword is taken for it. -/
theorem longer_word_misread : ¬∀ (sql : String) (kind : StatementKind), ofText? sql = some kind ↔ kind.Told sql := by
  intro agree
  have told : ofText? "SELECT_x" = some .select := by cbv
  obtain ⟨t, found, leads⟩ := (agree "SELECT_x" .select).mp told
  have word : Sql.Token.leading? "SELECT_x".toList = some (.word "SELECT_x") := by decide +kernel
  rw [word] at found
  cases found
  cases leads

end StatementKind

end RowBase
