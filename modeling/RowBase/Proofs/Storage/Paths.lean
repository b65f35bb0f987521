import RowBase.Storage.Basic
import RowBase.Storage.FilePath

namespace RowBase

/-- What a unit name is made of, as far as paths are concerned. -/
structure IsPlainName (name : String) : Prop where
  filled : name ≠ ""
  notDot : name ≠ "."
  notUp : name ≠ ".."
  noSlash : '/' ∉ name.toList

theorem isPlainName_of_isUnitName {name : String} (unit : isUnitName name = true) : IsPlainName name := by
  simp only [isUnitName, Bool.and_eq_true, bne_iff_ne, ne_eq, decide_eq_true_eq, List.all_eq_true] at unit
  obtain ⟨⟨⟨filled, notDot⟩, notUp⟩, chars⟩ := unit
  refine ⟨filled, notDot, notUp, fun slash => ?_⟩
  have := (chars '/' slash).1.1
  simp at this

theorem checkName_eq_ok_iff {name : String} : checkName name = .ok () ↔ isUnitName name = true := by
  unfold checkName
  split <;> simp_all

namespace FilePath

theorem split_ne_nil (cs : List Char) : split cs ≠ [] := by
  cases cs with
  | nil => simp [split]
  | cons c cs =>
    rw [split]
    split
    · simp
    · split <;> simp

theorem split_of_noSlash {cs : List Char} (noSlash : '/' ∉ cs) : split cs = [cs] := by
  induction cs with
  | nil => rfl
  | cons c cs ih =>
    simp only [List.mem_cons, not_or] at noSlash
    rw [split, ih noSlash.2]
    simp [Ne.symm noSlash.1]

theorem split_append_slash (cs ds : List Char) : split (cs ++ '/' :: ds) = split cs ++ split ds := by
  induction cs with
  | nil =>
    rw [List.nil_append, split]
    cases pieces : split ds with
    | nil => exact absurd pieces (split_ne_nil ds)
    | cons piece rest => simp [split, pieces]
  | cons c cs ih =>
    rw [List.cons_append, split, split, ih]
    cases pieces : split cs with
    | nil => exact absurd pieces (split_ne_nil cs)
    | cons piece rest =>
      simp only [List.cons_append]
      split <;> rfl

theorem text_join (p : FilePath) {name : String} (plain : IsPlainName name) :
    (p.join name).text.toList = name.toList ∧ p.text = "" ∨
      ∃ cs, (p.join name).text.toList = cs ++ '/' :: name.toList ∧
        (p.text.toList = cs ∨ p.text.toList = cs ++ ['/']) := by
  have relative : (⟨name⟩ : FilePath).isAbsolute = false := by
    rw [isAbsolute, beq_eq_false_iff_ne]
    intro head
    exact plain.noSlash (List.mem_of_head? head)
  by_cases here : p.text = ""
  · refine .inl ⟨?_, here⟩
    simp [join, relative, here]
  · refine .inr ?_
    by_cases slash : p.endsInSlash = true
    · obtain ⟨cs, text⟩ : ∃ cs, p.text.toList = cs ++ ['/'] := by
        rw [endsInSlash, beq_iff_eq] at slash
        exact List.getLast?_eq_some_iff.mp slash
      refine ⟨cs, ?_, .inr text⟩
      simp [join, relative, here, slash, text]
    · refine ⟨p.text.toList, ?_, .inl rfl⟩
      simp [join, relative, here, slash]

theorem isSkipped_eq_false {name : String} (plain : IsPlainName name) : isSkipped name = false := by
  simp [isSkipped, plain.filled, plain.notDot]

theorem pieces_of_text {p : FilePath} {cs : List Char} (text : p.text.toList = cs) :
    p.pieces = (split cs).map .ofList := by
  rw [pieces, text]

theorem pieces_join (p : FilePath) {name : String} (plain : IsPlainName name) :
    ∃ before, (p.join name).pieces = before ++ [name] ∧ before.filter (!isSkipped ·) = p.names := by
  have alone : (split name.toList).map String.ofList = [name] := by
    simp [split_of_noSlash plain.noSlash]
  rcases p.text_join plain with ⟨text, here⟩ | ⟨cs, text, path⟩
  · refine ⟨[], ?_, ?_⟩
    · rw [pieces_of_text text, alone, List.nil_append]
    · simp [names, pieces, here, split, isSkipped]
  · refine ⟨(split cs).map .ofList, ?_, ?_⟩
    · rw [pieces_of_text text, split_append_slash, List.map_append, alone]
    · rcases path with path | path
      · rw [names, pieces_of_text path]
      · rw [names, pieces_of_text path, split_append_slash, List.map_append, List.filter_append]
        simp [split, isSkipped]

theorem names_join (p : FilePath) {name : String} (plain : IsPlainName name) :
    (p.join name).names = p.names ++ [name] := by
  obtain ⟨before, pieces, names⟩ := p.pieces_join plain
  rw [FilePath.names, pieces, List.filter_append, names]
  simp [isSkipped_eq_false plain]

theorem ne_empty_join (p : FilePath) {name : String} (plain : IsPlainName name) : (p.join name).text ≠ "" := by
  intro empty
  rcases p.text_join plain with ⟨text, -⟩ | ⟨cs, text, -⟩
  · rw [empty] at text
    exact plain.filled (String.toList_eq_nil_iff.mp text.symm)
  · simp [empty] at text

theorem text_join_eq (p : FilePath) {name : String} (plain : IsPlainName name) :
    ∃ between : String, (p.join name).text = p.text ++ between ++ name := by
  simp only [← String.toList_inj, String.toList_append]
  rcases p.text_join plain with ⟨text, here⟩ | ⟨cs, text, path | path⟩
  · exact ⟨"", by simp [text, here]⟩
  · exact ⟨"/", by simp [text, path]⟩
  · exact ⟨"", by simp [text, path]⟩

theorem utf8ByteSize_join_le (p : FilePath) {name : String} (plain : IsPlainName name) :
    p.text.utf8ByteSize + name.utf8ByteSize ≤ (p.join name).text.utf8ByteSize := by
  obtain ⟨between, text⟩ := p.text_join_eq plain
  rw [text, String.utf8ByteSize_append, String.utf8ByteSize_append]
  omega

theorem noSlash_of_mem_split {cs piece : List Char} (member : piece ∈ split cs) : '/' ∉ piece := by
  induction cs generalizing piece with
  | nil =>
    have empty : piece = [] := by simpa [split] using member
    simp [empty]
  | cons c cs ih =>
    rw [split] at member
    cases pieces : split cs with
    | nil => exact absurd pieces (split_ne_nil cs)
    | cons first rest =>
      have inside : '/' ∉ first := ih (by simp [pieces])
      have others : ∀ p ∈ rest, '/' ∉ p := fun p among => ih (by simp [pieces, among])
      simp only [pieces] at member
      by_cases slash : c = '/'
      · rw [if_pos slash, List.mem_cons, List.mem_cons] at member
        rcases member with rfl | rfl | member
        · simp
        · exact inside
        · exact others piece member
      · rw [if_neg slash, List.mem_cons] at member
        rcases member with rfl | member
        · simp [Ne.symm slash, inside]
        · exact others piece member

theorem split_intercalate {pieces : List (List Char)} (filled : pieces ≠ []) (noSlash : ∀ p ∈ pieces, '/' ∉ p) :
    split (['/'].intercalate pieces) = pieces := by
  induction pieces with
  | nil => exact absurd rfl filled
  | cons piece pieces ih =>
    have first : split piece = [piece] := split_of_noSlash (noSlash piece (by simp))
    cases pieces with
    | nil => simpa using first
    | cons next rest =>
      have others : split (['/'].intercalate (next :: rest)) = next :: rest :=
        ih (by simp) fun p member => noSlash p (by simp [member])
      rw [List.intercalate_cons_cons, List.append_assoc, List.singleton_append, split_append_slash, first, others,
        List.singleton_append]

theorem pieces_intercalate {pieces : List String} (filled : pieces ≠ []) (noSlash : ∀ p ∈ pieces, '/' ∉ p.toList) :
    (⟨"/".intercalate pieces⟩ : FilePath).pieces = pieces := by
  have text : ("/".intercalate pieces).toList = ['/'].intercalate (pieces.map String.toList) := String.toList_intercalate
  rw [FilePath.pieces, text, split_intercalate (by simpa using filled) (by simpa using noSlash), List.map_map]
  simp [Function.comp_def]

theorem names_dropSkipped (pieces : List String) :
    (dropSkipped pieces).filter (!isSkipped ·) = pieces.filter (!isSkipped ·) := by
  have dropped (ps : List String) : (ps.dropWhile isSkipped).filter (!isSkipped ·) = ps.filter (!isSkipped ·) := by
    induction ps with
    | nil => rfl
    | cons p ps ih =>
      by_cases skipped : isSkipped p = true
      · rw [List.dropWhile_cons_of_pos skipped, ih]
        simp [skipped]
      · rw [List.dropWhile_cons_of_neg skipped]
  rw [dropSkipped, List.filter_reverse, dropped, ← List.filter_reverse, List.reverse_reverse]

theorem mem_of_mem_dropSkipped {piece : String} {pieces : List String} (member : piece ∈ dropSkipped pieces) :
    piece ∈ pieces := by
  have among := (List.dropWhile_sublist isSkipped).subset (List.mem_reverse.mp member)
  exact List.mem_reverse.mp among

theorem dropSkipped_concat (before : List String) {name : String} (plain : IsPlainName name) :
    dropSkipped (before ++ [name]) = before ++ [name] := by
  simp [dropSkipped, isSkipped_eq_false plain]

theorem names_parent? {p dir : FilePath} {name : String} (plain : IsPlainName name)
    (parent : (p.join name).parent? = some dir) : dir.names = p.names := by
  obtain ⟨before, pieces, names⟩ := p.pieces_join plain
  have kept : dropSkipped (p.join name).pieces = before ++ [name] := by
    rw [pieces, dropSkipped_concat before plain]
  have above : (dropSkipped before).filter (!isSkipped ·) = p.names := by rw [names_dropSkipped, names]
  have text (filled : dropSkipped before ≠ []) : (⟨"/".intercalate (dropSkipped before)⟩ : FilePath).names = p.names := by
    have noSlash : ∀ piece ∈ dropSkipped before, '/' ∉ piece.toList := by
      intro piece member
      have among : piece ∈ (p.join name).pieces := by
        rw [pieces]
        exact List.mem_append_left _ (mem_of_mem_dropSkipped member)
      obtain ⟨cs, split, rfl⟩ := List.mem_map.mp among
      simpa using noSlash_of_mem_split split
    rw [FilePath.names, pieces_intercalate filled noSlash, above]
  have some : before ++ [name] ≠ [] := by simp
  simp only [parent?, kept, List.dropLast_concat, if_neg some] at parent
  by_cases empty : dropSkipped before = []
  · -- What is left is the top, the current directory or nothing at all; none of them has names.
    have here : p.names = [] := by rw [← above, empty, List.filter_nil]
    rw [here]
    simp only [if_pos empty] at parent
    split at parent
    · cases parent
      rfl
    · split at parent
      · cases parent
        rfl
      · cases parent
        rfl
  · simp only [if_neg empty] at parent
    split at parent
    · cases parent
      exact text empty
    · cases parent
      exact text empty

theorem getLast?_join (p : FilePath) {name : String} (plain : IsPlainName name) :
    (p.join name).text.toList.getLast? = name.toList.getLast? := by
  obtain empty | ⟨start, last, chars⟩ := name.toList.eq_nil_or_concat
  · exact absurd (String.toList_eq_nil_iff.mp empty) plain.filled
  · rcases p.text_join plain with ⟨text, -⟩ | ⟨cs, text, -⟩
    · rw [text]
    · rw [text, chars, List.concat_eq_append, ← List.cons_append, ← List.append_assoc, List.getLast?_concat,
        List.getLast?_concat]

theorem endsInSlash_join (p : FilePath) {name : String} (plain : IsPlainName name) :
    (p.join name).endsInSlash = false := by
  rw [endsInSlash, getLast?_join p plain, beq_eq_false_iff_ne]
  intro last
  exact plain.noSlash (List.mem_of_getLast? last)

theorem mem_join {p : FilePath} {name : String} (plain : IsPlainName name) {c : Char}
    (member : c ∈ (p.join name).text.toList) : c ∈ p.text.toList ∨ c = '/' ∨ c ∈ name.toList := by
  rcases p.text_join plain with ⟨text, -⟩ | ⟨cs, text, path | path⟩
  · rw [text] at member
    exact .inr (.inr member)
  · rw [text] at member
    simpa [path] using member
  · rw [text] at member
    rw [path]
    rcases List.mem_append.mp member with before | after
    · exact .inl (List.mem_append_left _ before)
    · exact .inr (List.mem_cons.mp after)

theorem intercalate_split (cs : List Char) : ['/'].intercalate (split cs) = cs := by
  induction cs with
  | nil => rfl
  | cons c cs ih =>
    rw [split]
    cases pieces : split cs with
    | nil => exact absurd pieces (split_ne_nil cs)
    | cons piece rest =>
      rw [pieces] at ih
      by_cases slash : c = '/'
      · simp [slash, List.intercalate_cons_cons, ih]
      · cases rest with
        | nil => simpa [slash] using ih
        | cons next rest =>
          rw [List.intercalate_cons_cons] at ih
          simp [slash, List.intercalate_cons_cons, ih]

theorem intercalate_pieces (p : FilePath) : "/".intercalate p.pieces = p.text := by
  rw [← String.toList_inj, String.toList_intercalate, pieces, List.map_map]
  simpa [Function.comp_def] using intercalate_split p.text.toList

theorem pieces_join_of_relative {p : FilePath} (filled : p.text ≠ "") (slash : p.endsInSlash = false) {name : String}
    (plain : IsPlainName name) : (p.join name).pieces = p.pieces ++ [name] := by
  rcases p.text_join plain with ⟨-, empty⟩ | ⟨cs, text, path | path⟩
  · exact absurd empty filled
  · rw [pieces_of_text text, split_append_slash, List.map_append, ← pieces_of_text path]
    simp [split_of_noSlash plain.noSlash]
  · simp [endsInSlash, path] at slash

theorem parent?_join (p : FilePath) {space key : String} (spaceName : IsPlainName space) (keyName : IsPlainName key) :
    ((p.join space).join key).parent? = some (p.join space) := by
  obtain ⟨before, inner, -⟩ := p.pieces_join spaceName
  have outer := pieces_join_of_relative (p.ne_empty_join spaceName) (p.endsInSlash_join spaceName) keyName
  have text : (⟨"/".intercalate (before ++ [space])⟩ : FilePath) = p.join space := by
    rw [← inner, intercalate_pieces]
  have kept : dropSkipped ((p.join space).join key).pieces = before ++ [space] ++ [key] := by
    rw [outer, inner, dropSkipped_concat _ keyName]
  simp only [parent?, kept, List.dropLast_concat, dropSkipped_concat _ spaceName, text]
  simp

end FilePath

end RowBase
