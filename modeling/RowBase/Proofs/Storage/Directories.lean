import RowBase.Proofs.Storage.Paths
import RowBase.Storage.FileTree

namespace RowBase

namespace FileTree

/-- Where names lead from a directory, if they lead anywhere. -/
def follow (dir : List String) : List String → List String
  | [] => dir
  | name :: rest => follow (if name = ".." then dir.dropLast else dir ++ [name]) rest

theorem follow_append (dir ns ms : List String) : follow dir (ns ++ ms) = follow (follow dir ns) ms := by
  induction ns generalizing dir with
  | nil => rfl
  | cons name ns ih => exact ih _

theorem follow_concat (before : List String) {name : String} (down : name ≠ "..") :
    follow [] (before ++ [name]) = follow [] before ++ [name] := by
  rw [follow_append, follow, if_neg down, follow]

theorem enter_eq_ok {t : FileTree} {dir next : List String} {name : String} (entered : t.enter dir name = .ok next) :
    next = (if name = ".." then dir.dropLast else dir ++ [name]) ∧
      (name ≠ ".." → isTooLong name = false ∧ t.node? next = some .directory) := by
  unfold enter at entered
  by_cases up : name = ".."
  · simp_all
  · by_cases long : isTooLong name = true
    · simp_all
    · rw [if_neg up, if_neg long] at entered
      rw [if_neg up]
      cases found : t.node? (dir ++ [name]) with
      | none => simp [found] at entered
      | some n =>
        cases n with
        | file => simp [found] at entered
        | directory =>
          simp only [found, Except.ok.injEq] at entered
          subst entered
          exact ⟨rfl, fun _ => ⟨by simpa using long, found⟩⟩

theorem walk_cons_eq_ok_iff {t : FileTree} {dir dir' names : List String} {name : String} :
    t.walk dir (name :: names) = .ok dir' ↔ ∃ next, t.enter dir name = .ok next ∧ t.walk next names = .ok dir' := by
  rw [walk]
  cases t.enter dir name with
  | error f => simp [bind, Except.bind]
  | ok next => simp [bind, Except.bind]

theorem eq_follow_of_walk {t : FileTree} {dir dir' names : List String} (walked : t.walk dir names = .ok dir') :
    dir' = follow dir names := by
  induction names generalizing dir with
  | nil =>
    cases walked
    rfl
  | cons name names ih =>
    obtain ⟨next, entered, walked⟩ := walk_cons_eq_ok_iff.mp walked
    rw [ih walked, (enter_eq_ok entered).1, follow]

theorem walk_append_eq_ok_iff {t : FileTree} {dir dir' ns ms : List String} :
    t.walk dir (ns ++ ms) = .ok dir' ↔ ∃ mid, t.walk dir ns = .ok mid ∧ t.walk mid ms = .ok dir' := by
  induction ns generalizing dir with
  | nil => simp [walk]
  | cons name ns ih =>
    rw [List.cons_append, walk_cons_eq_ok_iff]
    simp only [ih, walk_cons_eq_ok_iff]
    constructor
    · intro h
      rcases h with ⟨next, entered, mid, first, second⟩
      exact ⟨mid, ⟨next, entered, first⟩, second⟩
    · intro h
      rcases h with ⟨mid, ⟨next, entered, first⟩, second⟩
      exact ⟨next, entered, mid, first, second⟩

def file? (t : FileTree) (place : List String) : Option Bytes :=
  match t.node? place with
  | some (.file bs) => some bs
  | _ => none

theorem file?_eq_some_iff {t : FileTree} {place : List String} {bs : Bytes} :
    t.file? place = some bs ↔ t.node? place = some (.file bs) := by
  unfold file?
  split <;> simp_all

theorem node?_empty {place : List String} (below : place ≠ []) : empty.node? place = none := by
  rw [node?, if_neg below]
  rfl

theorem file?_empty (place : List String) : empty.file? place = none := by
  by_cases top : place = []
  · rw [file?, top]
    rfl
  · rw [file?, node?_empty top]

theorem node?_insert_self (t : FileTree) {place : List String} (below : place ≠ []) (n : FileNode) :
    (t.insert place n).node? place = some n := by
  rw [node?, if_neg below]
  exact SortedMap.find?_insert_self _ _ _

theorem node?_insert_ne (t : FileTree) {place place' : List String} (apart : place ≠ place') (n : FileNode) :
    (t.insert place n).node? place' = t.node? place' := by
  unfold node? insert
  rw [SortedMap.find?_insert_ne]
  rwa [ne_eq, Place.ofNames_inj]

theorem file?_insert_file (t : FileTree) {place : List String} (below : place ≠ []) (bs : Bytes)
    (place' : List String) :
    (t.insert place (.file bs)).file? place' = if place' = place then some bs else t.file? place' := by
  by_cases same : place' = place
  · subst same
    rw [if_pos rfl, file?_eq_some_iff]
    exact t.node?_insert_self below _
  · rw [if_neg same, file?, file?, t.node?_insert_ne (Ne.symm same)]

theorem notFound_of_enter {t : FileTree} {dir : List String} {name : String}
    (missing : t.enter dir name = .error .notFound) : name ≠ ".." ∧ t.node? (dir ++ [name]) = none := by
  unfold enter at missing
  split at missing
  · simp at missing
  · rename_i down
    split at missing
    · simp at missing
    · split at missing <;> simp_all

/-- The second tree has all that the first has, and directories where the first has nothing, on the way that the
names lead. -/
structure GrownAlong (names : List String) (t t' : FileTree) : Prop where
  kept : ∀ place n, t.node? place = some n → t'.node? place = some n
  made : ∀ place, t.node? place = none → t'.node? place = none ∨
    t'.node? place = some .directory ∧ ∃ way, way <+: names ∧ place = follow [] way

namespace GrownAlong

variable {names : List String} {t t' t'' : FileTree}

theorem refl (names : List String) (t : FileTree) : GrownAlong names t t where
  kept _ _ found := found
  made _ free := .inl free

theorem trans (first : GrownAlong names t t') (second : GrownAlong names t' t'') : GrownAlong names t t'' where
  kept place n found := second.kept place n (first.kept place n found)
  made place free := by
    rcases first.made place free with free' | ⟨directory, way⟩
    · exact second.made place free'
    · exact .inr ⟨second.kept place _ directory, way⟩

theorem mono {more : List String} (grown : GrownAlong names t t') (start : names <+: more) : GrownAlong more t t' where
  kept := grown.kept
  made place free := by
    rcases grown.made place free with free' | ⟨directory, way, along, place⟩
    · exact .inl free'
    · exact .inr ⟨directory, way, along.trans start, place⟩

theorem file?_eq (grown : GrownAlong names t t') : t'.file? = t.file? := by
  funext place
  unfold file?
  cases found : t.node? place with
  | some n => rw [grown.kept place n found]
  | none =>
    rcases grown.made place found with free | ⟨directory, -⟩
    · rw [free]
    · rw [directory]

theorem insert {before : List String} {name : String} (down : name ≠ "..")
    (free : t.node? (follow [] before ++ [name]) = none) :
    GrownAlong (before ++ [name]) t (t.insert (follow [] before ++ [name]) .directory) where
  kept place n found := by
    have apart : follow [] before ++ [name] ≠ place := by
      intro same
      rw [same, found] at free
      simp at free
    rw [node?_insert_ne t apart, found]
  made place free' := by
    by_cases same : follow [] before ++ [name] = place
    · refine .inr ⟨?_, before ++ [name], List.prefix_refl _, ?_⟩
      · rw [← same]
        exact t.node?_insert_self (by simp) _
      · rw [← same, follow_concat before down]
    · rw [node?_insert_ne t same]
      exact .inl free'

end GrownAlong

theorem grown_makeAlong (t : FileTree) (made : Bool) (before names : List String) :
    GrownAlong (before ++ names) t (t.makeAlong made (follow [] before) names).2 := by
  induction names generalizing t made before with
  | nil => exact .refl _ t
  | cons name names ih =>
    have split : before ++ name :: names = (before ++ [name]) ++ names := by simp
    rw [makeAlong, split]
    split
    · rename_i next entered
      have place : next = follow [] (before ++ [name]) := by
        rw [(enter_eq_ok entered).1, follow_append]
        rfl
      rw [place]
      exact ih t made (before ++ [name])
    · rename_i missing
      obtain ⟨down, free⟩ := notFound_of_enter missing
      have grown := (GrownAlong.insert down free).mono (List.prefix_append (before ++ [name]) names)
      rw [← follow_concat before down] at grown ⊢
      exact grown.trans (ih _ true (before ++ [name]))
    · exact .refl _ t
    · exact .refl _ t

theorem grown_makeAround (t : FileTree) (names : List String) : GrownAlong names t (t.makeAround names).2 := by
  have grown := (t.grown_makeAlong false [] names.dropLast).mono (List.dropLast_prefix names)
  rw [follow] at grown
  unfold makeAround
  split
  · exact .refl _ t
  · split
    · rename_i along
      rwa [along] at grown
    · rename_i along
      rwa [along] at grown
  · exact .refl _ t

theorem grown_makeDirectories (t : FileTree) (p : FilePath) : GrownAlong p.names t (t.makeDirectories p).2 := by
  unfold makeDirectories
  split
  · exact .refl _ t
  · split
    · exact .refl _ t
    · split
      · exact t.grown_makeAround p.names
      · exact t.grown_makeAlong false [] p.names

/-- No file stands in the way that names lead, and no name is too long. -/
structure Passable (t : FileTree) (names : List String) : Prop where
  short : ∀ name ∈ names, name ≠ ".." → isTooLong name = false
  free : ∀ way, way <+: names → t.file? (follow [] way) = none

theorem Passable.congr {t t' : FileTree} {names : List String} (passable : t.Passable names)
    (same : t'.file? = t.file?) : t'.Passable names where
  short := passable.short
  free := by
    rw [same]
    exact passable.free

theorem enter_of_directory {t : FileTree} {dir : List String} {name : String} (down : name ≠ "..")
    (short : isTooLong name = false) (found : t.node? (dir ++ [name]) = some .directory) :
    t.enter dir name = .ok (dir ++ [name]) := by
  simp [enter, down, short, found]

theorem enter_of_kept {t t' : FileTree} (kept : ∀ place n, t.node? place = some n → t'.node? place = some n)
    {dir next : List String} {name : String} (entered : t.enter dir name = .ok next) : t'.enter dir name = .ok next := by
  obtain ⟨place, found⟩ := enter_eq_ok entered
  by_cases up : name = ".."
  · rw [enter, if_pos up] at entered ⊢
    exact entered
  · rw [if_neg up] at place
    subst place
    exact enter_of_directory up (found up).1 (kept _ _ (found up).2)

theorem walk_of_kept {t t' : FileTree} (kept : ∀ place n, t.node? place = some n → t'.node? place = some n)
    {dir dir' names : List String} (walked : t.walk dir names = .ok dir') : t'.walk dir names = .ok dir' := by
  induction names generalizing dir with
  | nil => exact walked
  | cons name names ih =>
    obtain ⟨next, entered, walked⟩ := walk_cons_eq_ok_iff.mp walked
    exact walk_cons_eq_ok_iff.mpr ⟨next, enter_of_kept kept entered, ih walked⟩

section Passable

variable {t : FileTree} {before names : List String} {name : String}

theorem Passable.enter (passable : t.Passable (before ++ name :: names)) :
    t.enter (follow [] before) name = .ok (follow [] (before ++ [name])) ∨
      name ≠ ".." ∧ isTooLong name = false ∧ t.enter (follow [] before) name = .error .notFound := by
  by_cases up : name = ".."
  · rw [FileTree.enter, if_pos up, follow_append, follow, if_pos up]
    exact .inl rfl
  · have short := passable.short name (by simp) up
    have free := passable.free (before ++ [name]) (by simp)
    rw [follow_concat before up] at free ⊢
    cases found : t.node? (follow [] before ++ [name]) with
    | none => exact .inr ⟨up, short, by simp [FileTree.enter, up, short, found]⟩
    | some n =>
      cases n with
      | file bs =>
        rw [file?_eq_some_iff.mpr found] at free
        simp at free
      | directory => exact .inl (enter_of_directory up short found)

theorem Passable.walk_from (passable : t.Passable (before ++ names)) :
    t.walk (follow [] before) names = .ok (follow [] (before ++ names)) ∨
      t.walk (follow [] before) names = .error .notFound := by
  induction names generalizing before with
  | nil => exact .inl (by rw [FileTree.walk, List.append_nil])
  | cons name names ih =>
    have split : before ++ name :: names = (before ++ [name]) ++ names := by simp
    rw [FileTree.walk]
    rcases passable.enter with entered | ⟨-, -, missing⟩
    · rw [split] at passable ⊢
      rw [entered]
      exact ih passable
    · rw [missing]
      exact .inr rfl

theorem Passable.makeAlong_from (passable : t.Passable (before ++ names)) (made : Bool) :
    ∃ t', t.makeAlong made (follow [] before) names = (.ok (), t') ∧
      t'.walk (follow [] before) names = .ok (follow [] (before ++ names)) := by
  induction names generalizing t before made with
  | nil => exact ⟨t, rfl, by rw [FileTree.walk, List.append_nil]⟩
  | cons name names ih =>
    have split : before ++ name :: names = (before ++ [name]) ++ names := by simp
    -- Whatever tree the directory of the name is in, the others are made from there.
    have others {t₁ : FileTree} {made₁ : Bool} (passable₁ : t₁.Passable (before ++ name :: names))
        (entered : t₁.enter (follow [] before) name = .ok (follow [] (before ++ [name]))) :
        ∃ t', t₁.makeAlong made₁ (follow [] (before ++ [name])) names = (.ok (), t') ∧
          t'.walk (follow [] before) (name :: names) = .ok (follow [] (before ++ name :: names)) := by
      rw [split] at passable₁ ⊢
      obtain ⟨t', run, walked⟩ := ih passable₁ made₁
      have grown := grown_makeAlong t₁ made₁ (before ++ [name]) names
      rw [run] at grown
      exact ⟨t', run, walk_cons_eq_ok_iff.mpr ⟨_, enter_of_kept grown.kept entered, walked⟩⟩
    rw [FileTree.makeAlong]
    rcases passable.enter with entered | ⟨down, short, missing⟩
    · rw [entered]
      exact others passable entered
    · rw [missing]
      have free := (notFound_of_enter missing).2
      have grown := GrownAlong.insert down free
      have found := t.node?_insert_self (by simp : follow [] before ++ [name] ≠ []) .directory
      have entered := enter_of_directory down short found
      rw [← follow_concat before down] at entered grown ⊢
      exact others (passable.congr grown.file?_eq) entered

theorem Passable.walk (passable : t.Passable names) :
    t.walk [] names = .ok (follow [] names) ∨ t.walk [] names = .error .notFound :=
  @Passable.walk_from t [] names passable

theorem Passable.makeAlong (passable : t.Passable names) (made : Bool) :
    ∃ t', t.makeAlong made [] names = (.ok (), t') ∧ t'.walk [] names = .ok (follow [] names) :=
  @Passable.makeAlong_from t [] names passable made

end Passable

end FileTree

end RowBase
