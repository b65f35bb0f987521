import RowBase.Proofs.Storage.Directories

namespace RowBase

def FilePath.place (p : FilePath) : List String :=
  FileTree.follow [] p.names

namespace FileTree

/-- A path that ends in the name of a file, in a directory that its other names lead to. The file may be missing. -/
structure Leads (t : FileTree) (p : FilePath) : Prop where
  checked : checkPath p = .ok ()
  notDot : endsInDot p = false
  inside : ∃ before name, p.names = before ++ [name] ∧ name ≠ ".." ∧ isTooLong name = false ∧
    t.walk [] before = .ok (follow [] before)

namespace Leads

variable {t t' : FileTree} {p : FilePath}

theorem place_ne_nil (leads : t.Leads p) : p.place ≠ [] := by
  obtain ⟨before, name, names, down, -⟩ := leads.inside
  rw [FilePath.place, names, follow_concat before down]
  simp

theorem locate (leads : t.Leads p) : t.locate p = .ok (p.place, t.node? p.place) := by
  obtain ⟨before, name, names, down, short, walked⟩ := leads.inside
  rw [FilePath.place, names, follow_concat before down, FileTree.locate, leads.checked, leads.notDot, names]
  simp [bind, Except.bind, walked, lookIn, down, short]

theorem mono (leads : t.Leads p)
    (kept : ∀ names dir, t.walk [] names = .ok dir → t'.walk [] names = .ok dir) : t'.Leads p where
  checked := leads.checked
  notDot := leads.notDot
  inside := by
    obtain ⟨before, name, names, down, short, walked⟩ := leads.inside
    exact ⟨before, name, names, down, short, kept before _ walked⟩

end Leads

theorem lookIn_eq_ok {t : FileTree} {dir place : List String} {name : String} {n : Option FileNode}
    (found : t.lookIn dir name = .ok (place, n)) (other : n ≠ some .directory) :
    name ≠ ".." ∧ isTooLong name = false := by
  unfold lookIn at found
  by_cases up : name = ".."
  · simp only [if_pos up, Except.ok.injEq, Prod.mk.injEq] at found
    exact absurd found.2.symm other
  · rw [if_neg up] at found
    by_cases long : isTooLong name = true
    · simp [long] at found
    · exact ⟨up, by simpa using long⟩

theorem leads_of_locate {t : FileTree} {p : FilePath} {place : List String} {n : Option FileNode}
    (located : t.locate p = .ok (place, n)) (other : n ≠ some .directory) :
    t.Leads p ∧ place = p.place ∧ n = t.node? p.place := by
  have leads : t.Leads p := by
    unfold locate at located
    cases checked : checkPath p with
    | error f => simp [checked, bind, Except.bind] at located
    | ok =>
      simp only [checked, bind, Except.bind] at located
      by_cases dot : endsInDot p = true
      · rw [if_pos dot] at located
        cases walked : t.walk [] p.names with
        | error f => simp [walked] at located
        | ok dir =>
          simp only [walked, pure, Except.pure, Except.ok.injEq, Prod.mk.injEq] at located
          exact absurd located.2.symm other
      · rw [if_neg dot] at located
        obtain empty | ⟨before, name, names⟩ := p.names.eq_nil_or_concat
        · simp only [empty, List.getLast?_nil, pure, Except.pure, Except.ok.injEq, Prod.mk.injEq] at located
          exact absurd located.2.symm other
        · rw [List.concat_eq_append] at names
          simp only [names, List.getLast?_concat, List.dropLast_concat] at located
          cases walked : t.walk [] before with
          | error f => simp [walked] at located
          | ok dir =>
            simp only [walked] at located
            obtain ⟨down, short⟩ := lookIn_eq_ok located other
            rw [eq_follow_of_walk walked] at walked
            exact ⟨checked, by simpa using dot, before, name, names, down, short, walked⟩
  rw [leads.locate, Except.ok.injEq, Prod.mk.injEq] at located
  exact ⟨leads, located.1.symm, located.2.symm⟩

theorem read_eq_ok_iff {t : FileTree} {p : FilePath} {bs : Bytes} :
    t.read p = .ok bs ↔ p.endsInSlash = false ∧ t.Leads p ∧ t.file? p.place = some bs := by
  constructor
  · intro read
    unfold FileTree.read at read
    cases located : t.locate p with
    | error f => simp [located, bind, Except.bind] at read
    | ok found =>
      rcases found with ⟨place, _ | content | _⟩
      · simp [located, bind, Except.bind] at read
      · obtain ⟨leads, -, same⟩ := leads_of_locate located (by simp)
        by_cases slash : p.endsInSlash = true
        · simp [located, slash, bind, Except.bind] at read
        · simp only [located, slash, bind, Except.bind, Bool.false_eq_true, if_false, Except.ok.injEq] at read
          rw [← read]
          exact ⟨by simpa using slash, leads, file?_eq_some_iff.mpr same.symm⟩
      · simp [located, bind, Except.bind] at read
  · intro h
    obtain ⟨slash, leads, found⟩ := h
    rw [FileTree.read, leads.locate, file?_eq_some_iff.mp found]
    simp [slash, bind, Except.bind]

theorem write_eq_ok {t t' : FileTree} {p : FilePath} {bs : Bytes} (written : t.write p bs = .ok t') :
    p.endsInSlash = false ∧ ∃ place n, t.locate p = .ok (place, n) ∧ n ≠ some .directory ∧
      t' = t.insert place (.file bs) := by
  unfold write at written
  cases checked : checkPath p with
  | error f => simp [checked, bind, Except.bind] at written
  | ok =>
    by_cases slash : p.endsInSlash = true
    · simp only [checked, slash, if_true, bind, Except.bind] at written
      split at written <;> simp [throw, throwThe, MonadExceptOf.throw] at written
    · simp only [checked, slash, bind, Except.bind, Bool.false_eq_true, if_false] at written
      refine ⟨by simpa using slash, ?_⟩
      cases located : t.locate p with
      | error f => simp [located] at written
      | ok found =>
        rcases found with ⟨place, n⟩
        simp only [located] at written
        by_cases directory : n = some .directory
        · simp [directory] at written
        · refine ⟨place, n, rfl, directory, ?_⟩
          cases n with
          | none =>
            cases written
            rfl
          | some node =>
            cases node with
            | file =>
              cases written
              rfl
            | directory => exact absurd rfl directory

theorem walk_insert_file {t : FileTree} {place : List String} (below : place ≠ [])
    (other : t.node? place ≠ some .directory) (bs : Bytes) {dir dir' names : List String}
    (walked : t.walk dir names = .ok dir') : (t.insert place (.file bs)).walk dir names = .ok dir' := by
  induction names generalizing dir with
  | nil => exact walked
  | cons name names ih =>
    obtain ⟨next, entered, walked⟩ := walk_cons_eq_ok_iff.mp walked
    refine walk_cons_eq_ok_iff.mpr ⟨next, ?_, ih walked⟩
    -- Every step ends in a directory, and the file took the place of none.
    by_cases up : name = ".."
    · rw [enter, if_pos up] at entered ⊢
      exact entered
    · have found := ((enter_eq_ok entered).2 up).2
      have step : next = dir ++ [name] := by rw [(enter_eq_ok entered).1, if_neg up]
      have apart : place ≠ dir ++ [name] := by
        intro same
        subst same
        rw [step] at found
        exact other found
      rw [enter, t.node?_insert_ne apart]
      exact entered

theorem leads_of_write {t t' : FileTree} {p : FilePath} {bs : Bytes} (written : t.write p bs = .ok t') :
    p.endsInSlash = false ∧ t.Leads p ∧ t.node? p.place ≠ some .directory ∧ t' = t.insert p.place (.file bs) := by
  obtain ⟨slash, place, n, located, other, rfl⟩ := write_eq_ok written
  obtain ⟨leads, rfl, rfl⟩ := leads_of_locate located other
  exact ⟨slash, leads, other, rfl⟩

theorem read_of_write {t t' : FileTree} {p : FilePath} {bs : Bytes} (written : t.write p bs = .ok t') :
    t'.read p = .ok bs := by
  obtain ⟨slash, leads, other, rfl⟩ := leads_of_write written
  have below := leads.place_ne_nil
  have leads' := leads.mono fun _ _ => walk_insert_file below other bs
  refine read_eq_ok_iff.mpr ⟨slash, leads', ?_⟩
  rw [file?_insert_file t below, if_pos rfl]

theorem read_of_other_write {t t' : FileTree} {p q : FilePath} {bs content : Bytes} (written : t.write q content = .ok t')
    (apart : q.place ≠ p.place) (read : t.read p = .ok bs) : t'.read p = .ok bs := by
  obtain ⟨-, there, other, rfl⟩ := leads_of_write written
  obtain ⟨slash, leads, found⟩ := read_eq_ok_iff.mp read
  have below := there.place_ne_nil
  have leads' := leads.mono fun _ _ => walk_insert_file below other content
  refine read_eq_ok_iff.mpr ⟨slash, leads', ?_⟩
  rw [file?_insert_file t below, if_neg apart.symm, found]

theorem GrownAlong.read_eq {names : List String} {t t' : FileTree} (grown : GrownAlong names t t') {p : FilePath}
    {bs : Bytes} (read : t.read p = .ok bs) : t'.read p = .ok bs := by
  obtain ⟨slash, leads, found⟩ := read_eq_ok_iff.mp read
  have leads' := leads.mono fun _ _ => walk_of_kept grown.kept
  rw [← grown.file?_eq] at found
  exact read_eq_ok_iff.mpr ⟨slash, leads', found⟩

theorem save_cases {t t' : FileTree} {p : FilePath} {bs : Bytes} {r : Except Error Unit} (saved : t.save p bs = (r, t')) :
    ∃ t₁ : FileTree, (t₁ = t ∨ ∃ dir, p.parent? = some dir ∧ GrownAlong dir.names t t₁) ∧
      (r = .ok () ∧ t₁.write p bs = .ok t' ∨ r ≠ .ok () ∧ t' = t₁) := by
  unfold save at saved
  dsimp only at saved
  split at saved
  · refine ⟨t, .inl rfl, ?_⟩
    split at saved
    · rename_i written
      cases saved
      exact .inl ⟨rfl, written⟩
    · cases saved
      exact .inr ⟨by simp, rfl⟩
  · rename_i dir parent
    have grown := t.grown_makeDirectories dir
    split at saved
    · rename_i t₁ made
      rw [made] at grown
      refine ⟨t₁, .inr ⟨dir, parent, grown⟩, ?_⟩
      split at saved
      · rename_i written
        cases saved
        exact .inl ⟨rfl, written⟩
      · cases saved
        exact .inr ⟨by simp, rfl⟩
    · rename_i t₁ made
      rw [made] at grown
      cases saved
      exact ⟨_, .inr ⟨dir, parent, grown⟩, .inr ⟨by simp, rfl⟩⟩

theorem load_eq_ok_iff {t : FileTree} {p : FilePath} {bs : Bytes} : t.load p = .ok bs ↔ t.read p = .ok bs := by
  rw [load]
  cases t.read p <;> simp

theorem file?_of_save {t t' : FileTree} {p : FilePath} {bs : Bytes} (saved : t.save p bs = (.ok (), t')) :
    t'.read p = .ok bs ∧ ∀ place, t'.file? place = if place = p.place then some bs else t.file? place := by
  obtain ⟨t₁, grown, ⟨-, written⟩ | ⟨failed, -⟩⟩ := save_cases saved
  · refine ⟨read_of_write written, fun place => ?_⟩
    obtain ⟨-, leads, -, rfl⟩ := leads_of_write written
    rw [file?_insert_file t₁ leads.place_ne_nil]
    rcases grown with rfl | ⟨dir, -, grown⟩
    · rfl
    · rw [grown.file?_eq]
  · exact absurd rfl failed

end FileTree

end RowBase
