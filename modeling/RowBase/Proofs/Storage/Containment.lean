import RowBase.Proofs.Storage.DiskUnits

namespace RowBase

namespace FilePath

def separator (p : FilePath) : String :=
  if p.text = "" ∨ p.endsInSlash = true then "" else "/"

theorem text_join_plain (p : FilePath) {name : String} (plain : IsPlainName name) :
    (p.join name).text = p.text ++ p.separator ++ name := by
  have relative : (⟨name⟩ : FilePath).isAbsolute = false := by
    rw [isAbsolute, beq_eq_false_iff_ne]
    exact fun head => plain.noSlash (List.mem_of_head? head)
  by_cases here : p.text = ""
  · simp [join, separator, relative, here]
  · by_cases slash : p.endsInSlash = true
    · simp [join, separator, relative, here, slash]
    · simp [join, separator, relative, here, slash]

theorem isAbsolute_join (p : FilePath) {name : String} (plain : IsPlainName name) :
    (p.join name).isAbsolute = p.isAbsolute := by
  rw [isAbsolute, isAbsolute, p.text_join_plain plain]
  cases chars : p.text.toList with
  | nil =>
    have here : p.text = "" := String.toList_eq_nil_iff.mp chars
    have head : name.toList.head? ≠ some '/' := fun head => plain.noSlash (List.mem_of_head? head)
    simp [separator, here, head]
  | cons c cs => simp [chars]

/-- A path that is the root with two names put behind it, neither of which leads back, stays or starts anew. -/
structure IsTwoBelow (root : FilePath) (space key : String) (p : FilePath) : Prop where
  text : p.text = root.text ++ root.separator ++ space ++ "/" ++ key
  names : p.names = root.names ++ [space, key]
  absolute : p.isAbsolute = root.isAbsolute
  spacePlain : IsPlainName space
  keyPlain : IsPlainName key

theorem isTwoBelow_join (root : FilePath) {space key : String} (spacePlain : IsPlainName space)
    (keyPlain : IsPlainName key) : root.IsTwoBelow space key ((root.join space).join key) where
  text := by
    have slash : (root.join space).separator = "/" := by
      rw [separator, if_neg]
      simp [root.ne_empty_join spacePlain, root.endsInSlash_join spacePlain]
    rw [text_join_plain _ keyPlain, slash, root.text_join_plain spacePlain]
  names := by
    rw [names_join _ keyPlain, root.names_join spacePlain, List.append_assoc, List.singleton_append]
  absolute := by rw [isAbsolute_join _ keyPlain, root.isAbsolute_join spacePlain]
  spacePlain := spacePlain
  keyPlain := keyPlain

end FilePath

def FileNode.isDirectory : FileNode → Bool
  | file _ => false
  | directory => true

namespace FileTree

/-- Files and directories stand at the same places of two trees. What the files hold may differ. -/
def SameShape (t u : FileTree) : Prop :=
  ∀ place, (t.node? place).map FileNode.isDirectory = (u.node? place).map FileNode.isDirectory

theorem save_result (t : FileTree) (p : FilePath) (bs : Bytes) :
    (t.save p bs).1 =
      match p.parent? with
      | none => ((t.write p bs).map fun _ => ()).mapError (.writeFailed p.text)
      | some dir => (t.makeDirectories dir).1.mapError (.writeFailed dir.text) >>= fun _ =>
        (((t.makeDirectories dir).2.write p bs).map fun _ => ()).mapError (.writeFailed p.text) := by
  unfold save
  cases p.parent? with
  | none =>
    dsimp only
    cases t.write p bs <;> rfl
  | some dir =>
    dsimp only
    rcases t.makeDirectories dir with ⟨f | _, t'⟩
    · rfl
    · dsimp only
      cases t'.write p bs <;> rfl

namespace SameShape

variable {t u : FileTree}

theorem node?_cases (shape : t.SameShape u) (place : List String) :
    t.node? place = none ∧ u.node? place = none ∨
      t.node? place = some .directory ∧ u.node? place = some .directory ∨
        ∃ bs bs', t.node? place = some (.file bs) ∧ u.node? place = some (.file bs') := by
  have same := shape place
  rcases left : t.node? place with _ | _ | _ <;> rcases right : u.node? place with _ | _ | _ <;>
    simp [left, right, FileNode.isDirectory] at same ⊢

theorem enter_eq (shape : t.SameShape u) (dir : List String) (name : String) : t.enter dir name = u.enter dir name := by
  unfold enter
  rcases shape.node?_cases (dir ++ [name]) with ⟨left, right⟩ | ⟨left, right⟩ | ⟨_, _, left, right⟩ <;>
    rw [left, right]

theorem walk_eq (shape : t.SameShape u) (dir names : List String) : t.walk dir names = u.walk dir names := by
  induction names generalizing dir with
  | nil => rfl
  | cons name names ih =>
    rw [walk, walk, shape.enter_eq]
    congr 1
    funext next
    exact ih next

theorem insert (shape : t.SameShape u) (place : List String) (n : FileNode) :
    (t.insert place n).SameShape (u.insert place n) := by
  intro other
  by_cases same : place = other
  · subst same
    by_cases top : place = []
    · rw [node?, node?, if_pos top, if_pos top]
    · rw [node?_insert_self t top, node?_insert_self u top]
  · rw [node?_insert_ne t same, node?_insert_ne u same]
    exact shape other

theorem lookIn_eq (shape : t.SameShape u) (dir : List String) (name : String) :
    (t.lookIn dir name).map (Prod.map id (·.map FileNode.isDirectory)) =
      (u.lookIn dir name).map (Prod.map id (·.map FileNode.isDirectory)) := by
  unfold lookIn
  split
  · rfl
  · split
    · rfl
    · simp [Except.map, shape (dir ++ [name])]

theorem locate_eq (shape : t.SameShape u) (p : FilePath) :
    (t.locate p).map (Prod.map id (·.map FileNode.isDirectory)) =
      (u.locate p).map (Prod.map id (·.map FileNode.isDirectory)) := by
  unfold locate
  rw [shape.walk_eq, shape.walk_eq]
  cases checkPath p with
  | error f => rfl
  | ok =>
    simp only [bind, Except.bind]
    split
    · split <;> rfl
    · split
      · rfl
      · split
        · rfl
        · exact shape.lookIn_eq _ _

theorem locate_cases (shape : t.SameShape u) (p : FilePath) :
    (∃ f, t.locate p = .error f ∧ u.locate p = .error f) ∨
      ∃ place n n', t.locate p = .ok (place, n) ∧ u.locate p = .ok (place, n') ∧
        n.map FileNode.isDirectory = n'.map FileNode.isDirectory := by
  have same := shape.locate_eq p
  rcases left : t.locate p with f | ⟨place, n⟩ <;> rcases right : u.locate p with f' | ⟨place', n'⟩ <;>
    simp only [left, right, Except.map, Prod.map, id_eq, reduceCtorEq, Except.error.injEq, Except.ok.injEq,
      Prod.mk.injEq] at same
  · exact .inl ⟨f, rfl, by rw [same]⟩
  · exact .inr ⟨place, n, n', rfl, by rw [same.1], same.2⟩

theorem read_eq (shape : t.SameShape u) {p : FilePath} (same : u.file? p.place = t.file? p.place) :
    t.read p = u.read p := by
  unfold read
  rcases shape.locate_cases p with ⟨f, left, right⟩ | ⟨place, n, n', left, right, kind⟩
  · rw [left, right]
  · rw [left, right]
    simp only [bind, Except.bind]
    rcases n with _ | bs | _ <;> rcases n' with _ | bs' | _ <;> simp [FileNode.isDirectory] at kind ⊢
    have found := (leads_of_locate left (by simp)).2.2
    have found' := (leads_of_locate right (by simp)).2.2
    rw [file?_eq_some_iff.mpr found.symm, file?_eq_some_iff.mpr found'.symm, Option.some.injEq] at same
    rw [same]

theorem write_eq (shape : t.SameShape u) (p : FilePath) (bs : Bytes) :
    (t.write p bs).map (fun _ => ()) = (u.write p bs).map (fun _ => ()) := by
  unfold write
  rw [shape.walk_eq]
  cases checkPath p with
  | error f => rfl
  | ok =>
    simp only [bind, Except.bind]
    split
    · split <;> rfl
    · rcases shape.locate_cases p with ⟨f, left, right⟩ | ⟨place, n, n', left, right, kind⟩
      · rw [left, right]
      · rw [left, right]
        rcases n with _ | bs | _ <;> rcases n' with _ | bs' | _ <;> simp [FileNode.isDirectory] at kind <;> rfl

theorem makeAlong (shape : t.SameShape u) (made : Bool) (dir names : List String) :
    (t.makeAlong made dir names).1 = (u.makeAlong made dir names).1 ∧
      (t.makeAlong made dir names).2.SameShape (u.makeAlong made dir names).2 := by
  induction names generalizing t u made dir with
  | nil => exact ⟨rfl, shape⟩
  | cons name names ih =>
    rw [FileTree.makeAlong, FileTree.makeAlong, shape.enter_eq]
    cases u.enter dir name with
    | ok next => exact ih shape made next
    | error f =>
      cases f with
      | notFound => exact ih (shape.insert _ _) true _
      | _ => exact ⟨rfl, shape⟩

theorem makeAround (shape : t.SameShape u) (names : List String) :
    (t.makeAround names).1 = (u.makeAround names).1 ∧ (t.makeAround names).2.SameShape (u.makeAround names).2 := by
  obtain ⟨same, grown⟩ := shape.makeAlong false [] names.dropLast
  unfold FileTree.makeAround
  rw [shape.walk_eq]
  cases u.walk [] names with
  | ok => exact ⟨rfl, shape⟩
  | error f =>
    cases f with
    | notFound =>
      rcases left : t.makeAlong false [] names.dropLast with ⟨r, t'⟩
      rcases right : u.makeAlong false [] names.dropLast with ⟨r', u'⟩
      simp only [left, right] at same grown ⊢
      subst same
      cases r with
      | error f => exact ⟨rfl, grown⟩
      | ok => exact ⟨congrArg (Except.map fun _ => ()) (grown.walk_eq [] names), grown⟩
    | _ => exact ⟨rfl, shape⟩

theorem makeDirectories (shape : t.SameShape u) (p : FilePath) :
    (t.makeDirectories p).1 = (u.makeDirectories p).1 ∧
      (t.makeDirectories p).2.SameShape (u.makeDirectories p).2 := by
  unfold FileTree.makeDirectories
  split
  · exact ⟨rfl, shape⟩
  · cases checkPath p with
    | error f => exact ⟨rfl, shape⟩
    | ok =>
      dsimp only
      split
      · exact shape.makeAround p.names
      · exact shape.makeAlong false [] p.names

theorem save_eq (shape : t.SameShape u) (p : FilePath) (bs : Bytes) : (t.save p bs).1 = (u.save p bs).1 := by
  rw [save_result, save_result]
  cases p.parent? with
  | none => exact congrArg (Except.mapError _) (shape.write_eq p bs)
  | some dir =>
    obtain ⟨same, grown⟩ := shape.makeDirectories dir
    dsimp only
    rw [same]
    congr 1
    funext _
    exact congrArg (Except.mapError _) (grown.write_eq p bs)

end SameShape

theorem sameShape_insert_file (t : FileTree) (place : List String) (bs bs' : Bytes) :
    (t.insert place (.file bs)).SameShape (t.insert place (.file bs')) := by
  intro other
  by_cases same : place = other
  · subst same
    by_cases top : place = []
    · rw [node?, node?, if_pos top, if_pos top]
    · rw [node?_insert_self t top, node?_insert_self t top]
      rfl
  · rw [node?_insert_ne t same, node?_insert_ne t same]

end FileTree

namespace Disk

/-- A call for a unit writes no file outside the places, and its answer hangs on what no file outside them holds. -/
structure TouchesOnly (d : Disk) (space key : String) (places : List String → Prop) : Prop where
  written : ∀ bs place, ¬places place → (Storage.write d space key bs).2.tree.file? place = d.tree.file? place
  answered : ∀ bs u, d.tree.SameShape u →
    (Storage.write { d with tree := u } space key bs).1 = (Storage.write d space key bs).1
  read : ∀ u, d.tree.SameShape u → (∀ place, places place → u.file? place = d.tree.file? place) →
    Storage.read { d with tree := u } space key = Storage.read d space key

theorem place_of_unitPath {d : Disk} {space key : String} {p : FilePath} (path : d.unitPath space key = .ok p) :
    p.place = d.root.place ++ [space, key] := by
  obtain ⟨spaceName, keyName, rfl⟩ := unitPath_eq_ok_iff.mp path
  exact d.root.place_unit (isPlainName_of_isUnitName spaceName) (isPlainName_of_isUnitName keyName)

theorem file?_of_write (d : Disk) (space key : String) (bs : Bytes) (place : List String) :
    (Storage.write d space key bs).2.tree.file? place = d.tree.file? place ∨
      isUnitName space = true ∧ isUnitName key = true ∧ place = d.root.place ++ [space, key] := by
  rcases call : Storage.write d space key bs with ⟨e | _, d'⟩
  · exact .inl (congrFun (grown_of_refused call).2.file?_eq place)
  · obtain ⟨spaceName, keyName, -, t, grown, written⟩ := write_eq_ok call
    obtain ⟨-, leads, -, tree⟩ := FileTree.leads_of_write written
    have below := leads.place_ne_nil
    rw [d.root.place_unit (isPlainName_of_isUnitName spaceName) (isPlainName_of_isUnitName keyName)] at tree below
    by_cases there : place = d.root.place ++ [space, key]
    · exact .inr ⟨spaceName, keyName, there⟩
    · refine .inl ?_
      rw [tree, FileTree.file?_insert_file t below, if_neg there, grown.file?_eq]

theorem write_result_of_sameShape (d : Disk) (space key : String) (bs : Bytes) {u : FileTree}
    (shape : d.tree.SameShape u) :
    (Storage.write { d with tree := u } space key bs).1 = (Storage.write d space key bs).1 := by
  change (write { d with tree := u } space key bs).1 = (d.write space key bs).1
  have paths : unitPath { d with tree := u } space key = d.unitPath space key := rfl
  unfold write
  rw [paths]
  cases d.unitPath space key with
  | error e => rfl
  | ok p => exact (shape.save_eq p bs).symm

theorem read_of_sameShape (d : Disk) (space key : String) {u : FileTree} (shape : d.tree.SameShape u)
    (same : isUnitName space = true → isUnitName key = true →
      u.file? (d.root.place ++ [space, key]) = d.tree.file? (d.root.place ++ [space, key])) :
    Storage.read { d with tree := u } space key = Storage.read d space key := by
  change read { d with tree := u } space key = d.read space key
  have paths : unitPath { d with tree := u } space key = d.unitPath space key := rfl
  unfold read
  rw [paths]
  cases path : d.unitPath space key with
  | error e => rfl
  | ok p =>
    obtain ⟨spaceName, keyName, -⟩ := unitPath_eq_ok_iff.mp path
    have content := same spaceName keyName
    rw [← place_of_unitPath path] at content
    simp only [bind, Except.bind, shape.read_eq content]

/-- The path of a unit, which is there exactly for unit names, is the root with the two names put behind it, and no
other pair of names leads to its place. A call for a unit touches no file but the one at that place, and none at
all if the names are no unit names. -/
theorem units_stay_two_below_root (d : Disk) (space key : String) :
    ((∃ p, d.unitPath space key = .ok p) ↔ isUnitName space = true ∧ isUnitName key = true) ∧
    (∀ p, d.unitPath space key = .ok p →
      d.root.IsTwoBelow space key p ∧ p.place = d.root.place ++ [space, key] ∧
        ∀ space' key' p', d.unitPath space' key' = .ok p' → p'.place = p.place → space' = space ∧ key' = key) ∧
    d.TouchesOnly space key fun place =>
      isUnitName space = true ∧ isUnitName key = true ∧ place = d.root.place ++ [space, key] := by
  refine ⟨?_, ?_, ?_⟩
  · simp [unitPath_eq_ok_iff]
  · intro p path
    refine ⟨?_, place_of_unitPath path, ?_⟩
    · obtain ⟨spaceName, keyName, rfl⟩ := unitPath_eq_ok_iff.mp path
      exact d.root.isTwoBelow_join (isPlainName_of_isUnitName spaceName) (isPlainName_of_isUnitName keyName)
    · intro space' key' p' path' same
      rw [place_of_unitPath path, place_of_unitPath path'] at same
      simpa using same
  · constructor
    · intro bs place outside
      exact (d.file?_of_write space key bs place).resolve_right outside
    · intro bs u shape
      exact d.write_result_of_sameShape space key bs shape
    · intro u shape same
      exact d.read_of_sameShape space key shape fun spaceName keyName => same _ ⟨spaceName, keyName, rfl⟩

def besideKey (bs : Bytes) : Disk :=
  ⟨(FileTree.empty.insert ["rows"] .directory).insert ["key"] (.file bs), ⟨"rows/"⟩⟩

theorem units_stay_two_below_root_besideKey :
    (besideKey [1]).unitPath "..." "C:" = .ok ⟨"rows/.../C:"⟩ ∧
    (⟨"rows/"⟩ : FilePath).IsTwoBelow "..." "C:" ⟨"rows/.../C:"⟩ ∧
    (∀ space key p, (besideKey [1]).unitPath space key = .ok p → p.place = ["rows", "...", "C:"] →
      space = "..." ∧ key = "C:") ∧
    (¬∃ p, (besideKey [1]).unitPath ".." "key" = .ok p) ∧
    (Storage.write (besideKey [1]) ".." "key" [3]).2.tree.file? ["key"] = some [1] ∧
    Storage.read (besideKey [2]) ".." "key" = Storage.read (besideKey [1]) ".." "key" := by
  have path : (besideKey [1]).unitPath "..." "C:" = .ok ⟨"rows/.../C:"⟩ :=
    unitPath_eq_ok_iff.mpr ⟨by decide, by decide, by decide +kernel⟩
  have place : (⟨"rows/.../C:"⟩ : FilePath).place = ["rows", "...", "C:"] := by decide +kernel
  have found : (besideKey [1]).tree.file? ["key"] = some [1] := by decide +kernel
  obtain ⟨-, inside, -⟩ := units_stay_two_below_root (besideKey [1]) "..." "C:"
  obtain ⟨below, -, alone⟩ := inside _ path
  obtain ⟨named, -, touches⟩ := units_stay_two_below_root (besideKey [1]) ".." "key"
  refine ⟨path, below, ?_, ?_, ?_, ?_⟩
  · intro space key p other same
    exact alone space key p other (same.trans place.symm)
  · rw [named]
    decide +kernel
  · rw [touches.written [3] ["key"] (by decide +kernel), found]
  · exact touches.read (besideKey [2]).tree (FileTree.sameShape_insert_file _ _ _ _) fun _ inside =>
      absurd inside.1 (by decide +kernel)

end Disk

end RowBase
