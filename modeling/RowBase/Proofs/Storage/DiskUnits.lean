import RowBase.Proofs.Storage.Files
import RowBase.Proofs.Storage.Units
import RowBase.Storage.Disk

namespace RowBase

theorem FilePath.place_join (p : FilePath) {name : String} (plain : IsPlainName name) :
    (p.join name).place = p.place ++ [name] := by
  rw [place, p.names_join plain, FileTree.follow_concat _ plain.notUp]
  rfl

theorem FilePath.place_unit (p : FilePath) {space key : String} (spaceName : IsPlainName space)
    (keyName : IsPlainName key) : ((p.join space).join key).place = p.place ++ [space, key] := by
  rw [place_join _ keyName, p.place_join spaceName, List.append_assoc, List.singleton_append]

namespace FileTree

theorem endsInDot_join (p : FilePath) {name : String} (plain : IsPlainName name) :
    endsInDot (p.join name) = false := by
  obtain ⟨before, pieces, -⟩ := p.pieces_join plain
  simp [endsInDot, pieces, List.filter_append, plain.filled, plain.notDot]

theorem locate_join (t : FileTree) {p : FilePath} {name : String} (plain : IsPlainName name)
    (checked : checkPath (p.join name) = .ok ()) :
    t.locate (p.join name) = t.walk [] p.names >>= fun dir => t.lookIn dir name := by
  rw [locate, checked]
  simp only [endsInDot_join p plain, p.names_join plain, List.getLast?_concat, List.dropLast_concat, bind, Except.bind,
    Bool.false_eq_true, if_false]

theorem lookIn_of_short (t : FileTree) (dir : List String) {name : String} (plain : IsPlainName name)
    (short : isTooLong name = false) : t.lookIn dir name = .ok (dir ++ [name], t.node? (dir ++ [name])) := by
  simp [lookIn, plain.notUp, short]

theorem locate_join_eq_ok_iff {t : FileTree} {p : FilePath} {name : String} (plain : IsPlainName name)
    {place : List String} {n : Option FileNode} :
    t.locate (p.join name) = .ok (place, n) ↔ checkPath (p.join name) = .ok () ∧ isTooLong name = false ∧
      ∃ dir, t.walk [] p.names = .ok dir ∧ place = dir ++ [name] ∧ n = t.node? place := by
  cases checked : checkPath (p.join name) with
  | error f => simp [locate, checked, bind, Except.bind]
  | ok =>
    rw [locate_join t plain checked]
    cases t.walk [] p.names with
    | error f => simp [bind, Except.bind]
    | ok dir =>
      by_cases long : isTooLong name = true
      · simp [lookIn, plain.notUp, long, bind, Except.bind]
      · simp only [Bool.not_eq_true] at long
        simp only [lookIn_of_short t dir plain long, bind, Except.bind, Except.ok.injEq, Prod.mk.injEq]
        constructor
        · intro h
          rcases h with ⟨rfl, rfl⟩
          exact ⟨trivial, long, dir, rfl, rfl, rfl⟩
        · intro h
          rcases h with ⟨-, -, _, rfl, rfl, rfl⟩
          exact ⟨rfl, rfl⟩

theorem Leads.walk_join {t : FileTree} {p : FilePath} {name : String} (leads : t.Leads (p.join name))
    (plain : IsPlainName name) : t.walk [] p.names = .ok p.place := by
  obtain ⟨before, last, names, -, -, walked⟩ := leads.inside
  rw [p.names_join plain] at names
  obtain ⟨rfl, -⟩ := List.append_inj' names rfl
  exact walked

theorem save_join_cases {t t' : FileTree} {p : FilePath} {name : String} (plain : IsPlainName name) {bs : Bytes}
    {r : Except Error Unit} (saved : t.save (p.join name) bs = (r, t')) :
    ∃ t₁ : FileTree, GrownAlong p.names t t₁ ∧
      (r = .ok () ∧ t₁.write (p.join name) bs = .ok t' ∨ r ≠ .ok () ∧ t' = t₁) := by
  obtain ⟨t₁, rfl | ⟨dir, parent, grown⟩, ends⟩ := save_cases saved
  · exact ⟨_, .refl _ _, ends⟩
  · rw [FilePath.names_parent? plain parent] at grown
    exact ⟨t₁, grown, ends⟩

theorem write_join_eq_ok {t t' : FileTree} {p : FilePath} {name : String} (plain : IsPlainName name) {bs : Bytes}
    (written : t.write (p.join name) bs = .ok t') :
    checkPath (p.join name) = .ok () ∧ t' = t.insert (p.place ++ [name]) (.file bs) ∧ t'.walk [] p.names = .ok p.place := by
  obtain ⟨-, leads, other, rfl⟩ := leads_of_write written
  have walked := walk_insert_file leads.place_ne_nil other bs (leads.walk_join plain)
  rw [p.place_join plain] at walked ⊢
  exact ⟨leads.checked, rfl, walked⟩

theorem checkPath_of_join {p : FilePath} {name : String} (plain : IsPlainName name) (filled : p.text ≠ "")
    (checked : checkPath (p.join name) = .ok ()) : checkPath p = .ok () := by
  obtain ⟨between, text⟩ := p.text_join_eq plain
  have size := p.utf8ByteSize_join_le plain
  unfold checkPath at checked ⊢
  split at checked
  · simp at checked
  · rename_i nul
    rw [text, String.toList_append, String.toList_append, List.append_assoc, List.any_append] at nul
    split at checked
    · simp at checked
    · split at checked
      · simp at checked
      · rename_i short
        have nul : p.text.toList.any (·.toNat == 0) = false := by
          rw [← Bool.not_eq_true]
          exact fun found => nul (by rw [found, Bool.true_or])
        have short : isPathTooLong p = false := by
          simp only [isPathTooLong, decide_eq_true_eq, decide_eq_false_iff_not] at short ⊢
          omega
        simp [nul, filled, short]

theorem fileName?_eq_some_iff {dir : List String} {place : Place} {n : FileNode} {name : String} :
    fileName? dir (place, n) = some name ↔ (∃ bs, n = .file bs) ∧ place = .ofNames (dir ++ [name]) := by
  constructor
  · intro named
    cases n with
    | directory => simp [fileName?] at named
    | file bs =>
      simp only [fileName?] at named
      split at named
      · rename_i inside
        obtain ⟨before, names⟩ := List.getLast?_eq_some_iff.mp named
        rw [names, List.dropLast_concat] at inside
        subst inside
        exact ⟨⟨bs, rfl⟩, Place.ext_names names⟩
      · simp at named
  · intro h
    rcases h with ⟨⟨bs, rfl⟩, rfl⟩
    simp [fileName?, Place.ofNames]

theorem mem_listing_iff {t : FileTree} {dir : List String} {name : String} :
    name ∈ t.nodes.entries.filterMap (fileName? dir) ↔ ∃ bs, t.file? (dir ++ [name]) = some bs := by
  have below : dir ++ [name] ≠ [] := by simp
  simp only [file?_eq_some_iff, node?, if_neg below, SortedMap.find?_eq_some_iff, List.mem_filterMap]
  constructor
  · intro h
    rcases h with ⟨⟨place, n⟩, member, named⟩
    obtain ⟨⟨bs, rfl⟩, rfl⟩ := fileName?_eq_some_iff.mp named
    exact ⟨bs, member⟩
  · intro h
    rcases h with ⟨bs, member⟩
    exact ⟨_, member, fileName?_eq_some_iff.mpr ⟨⟨bs, rfl⟩, rfl⟩⟩

theorem name_lt_of_place_lt {dir : List String} {a b : String}
    (less : Place.ofNames (dir ++ [a]) < Place.ofNames (dir ++ [b])) : a < b := by
  have place_lt {a b : String} (less : a < b) : Place.ofNames (dir ++ [a]) < Place.ofNames (dir ++ [b]) :=
    .inr ⟨by simp [Place.ofNames], List.append_left_lt (List.cons_lt_cons_iff.mpr (.inl less))⟩
  by_cases before : a < b
  · exact before
  · exfalso
    by_cases after : b < a
    · exact KeyOrder.irrefl _ (KeyOrder.trans less (place_lt after))
    · rw [KeyOrder.eq_of_not_lt before after] at less
      exact KeyOrder.irrefl _ less

theorem pairwise_listing (t : FileTree) (dir : List String) :
    (t.nodes.entries.filterMap (fileName? dir)).Pairwise (· < ·) := by
  rw [List.pairwise_filterMap]
  refine t.nodes.ascending.imp fun less a first b second => ?_
  rw [(fileName?_eq_some_iff.mp first).2, (fileName?_eq_some_iff.mp second).2] at less
  exact name_lt_of_place_lt less

theorem files_of_write {t t' : FileTree} {p : FilePath} {space key : String} (spaceName : IsPlainName space)
    (keyName : IsPlainName key) {bs : Bytes} (written : t.write ((p.join space).join key) bs = .ok t') :
    ∃ names, t'.files (p.join space) = .ok names ∧ key ∈ names := by
  obtain ⟨checked, rfl, walked⟩ := write_join_eq_ok keyName written
  rw [p.names_join spaceName] at walked
  obtain ⟨base, outer, inner⟩ := walk_append_eq_ok_iff.mp walked
  obtain ⟨_, entered, rest⟩ := walk_cons_eq_ok_iff.mp inner
  cases rest
  obtain ⟨place, found⟩ := enter_eq_ok entered
  obtain ⟨short, found⟩ := found spaceName.notUp
  rw [if_neg spaceName.notUp] at place
  have located := (locate_join_eq_ok_iff spaceName).mpr
    ⟨checkPath_of_join keyName (p.ne_empty_join spaceName) checked, short, base, outer, place, rfl⟩
  rw [found] at located
  refine ⟨_, by rw [files, located]; rfl, mem_listing_iff.mpr ⟨bs, ?_⟩⟩
  rw [file?_eq_some_iff]
  exact node?_insert_self t (by simp) (.file bs)

end FileTree

namespace Disk

def units (d : Disk) : Units Bytes := fun space key =>
  d.tree.file? (FileTree.follow [] d.root.names ++ [space, key])

theorem units_of_empty (root : FilePath) : units ⟨.empty, root⟩ = Units.empty := by
  funext space key
  exact FileTree.file?_empty _

theorem unitPath_eq_ok_iff {d : Disk} {space key : String} {p : FilePath} :
    d.unitPath space key = .ok p ↔
      isUnitName space = true ∧ isUnitName key = true ∧ p = (d.root.join space).join key := by
  simp only [unitPath, checkName]
  by_cases spaceName : isUnitName space = true
  · by_cases keyName : isUnitName key = true
    · simp [spaceName, keyName, eq_comm, bind, Except.bind, pure, Except.pure]
    · simp [spaceName, keyName, bind, Except.bind]
  · simp [spaceName, bind, Except.bind]

theorem write_eq_ok {d d' : Disk} {space key : String} {bs : Bytes}
    (written : Storage.write d space key bs = (.ok (), d')) :
    isUnitName space = true ∧ isUnitName key = true ∧ d'.root = d.root ∧
      ∃ t : FileTree, FileTree.GrownAlong (d.root.names ++ [space]) d.tree t ∧
        t.write ((d.root.join space).join key) bs = .ok d'.tree := by
  change d.write space key bs = (.ok (), d') at written
  unfold write at written
  split at written
  · simp at written
  · rename_i p path
    obtain ⟨spaceName, keyName, rfl⟩ := unitPath_eq_ok_iff.mp path
    rcases saved : d.tree.save ((d.root.join space).join key) bs with ⟨r, t'⟩
    rw [saved] at written
    cases written
    obtain ⟨t, grown, ⟨-, written⟩ | ⟨failed, -⟩⟩ :=
      FileTree.save_join_cases (isPlainName_of_isUnitName keyName) saved
    · rw [d.root.names_join (isPlainName_of_isUnitName spaceName)] at grown
      exact ⟨spaceName, keyName, rfl, t, grown, written⟩
    · exact absurd rfl failed

theorem grown_of_refused {d d' : Disk} {space key : String} {bs : Bytes} {e : Error}
    (refused : Storage.write d space key bs = (.error e, d')) :
    d'.root = d.root ∧ FileTree.GrownAlong (d.root.names ++ [space]) d.tree d'.tree := by
  change d.write space key bs = (.error e, d') at refused
  unfold write at refused
  split at refused
  · cases refused
    exact ⟨rfl, .refl _ _⟩
  · rename_i p path
    obtain ⟨spaceName, keyName, rfl⟩ := unitPath_eq_ok_iff.mp path
    rcases saved : d.tree.save ((d.root.join space).join key) bs with ⟨r, t'⟩
    rw [saved] at refused
    cases refused
    obtain ⟨t, grown, ⟨⟨⟩, -⟩ | ⟨-, rfl⟩⟩ := FileTree.save_join_cases (isPlainName_of_isUnitName keyName) saved
    rw [d.root.names_join (isPlainName_of_isUnitName spaceName)] at grown
    exact ⟨rfl, grown⟩

theorem units_of_refused {d d' : Disk} {space key : String} {bs : Bytes} {e : Error}
    (refused : Storage.write d space key bs = (.error e, d')) : d'.units = d.units := by
  obtain ⟨root, grown⟩ := grown_of_refused refused
  funext space' key'
  rw [units, units, root, grown.file?_eq]

theorem units_of_write {d d' : Disk} {space key : String} {bs : Bytes}
    (written : Storage.write d space key bs = (.ok (), d')) : d'.units = d.units.set space key bs := by
  obtain ⟨spaceUnit, keyUnit, root, t, grown, written⟩ := write_eq_ok written
  obtain ⟨-, leads, -, tree⟩ := FileTree.leads_of_write written
  have below := leads.place_ne_nil
  rw [d.root.place_unit (isPlainName_of_isUnitName spaceUnit) (isPlainName_of_isUnitName keyUnit)] at tree below
  funext space' key'
  have apart : d.root.place ++ [space', key'] = d.root.place ++ [space, key] ↔ space' = space ∧ key' = key := by simp
  change d'.tree.file? (d'.root.place ++ [space', key']) = _
  rw [root, tree, FileTree.file?_insert_file t below, grown.file?_eq]
  simp only [apart]
  rfl

theorem read_of_write {d d' : Disk} {space key : String} {bs : Bytes}
    (written : Storage.write d space key bs = (.ok (), d')) : Storage.read d' space key = .ok (some bs) := by
  obtain ⟨spaceName, keyName, root, t, -, written⟩ := write_eq_ok written
  have path : d'.unitPath space key = .ok ((d.root.join space).join key) :=
    unitPath_eq_ok_iff.mpr ⟨spaceName, keyName, by rw [root]⟩
  have found := FileTree.read_of_write written
  change d'.read space key = _
  rw [read, path]
  simp only [bind, Except.bind, found]
  rfl

theorem listed_of_write {d d' : Disk} {space key : String} {bs : Bytes}
    (written : Storage.write d space key bs = (.ok (), d')) :
    ∃ names, Storage.keys d' space = .ok names ∧ key ∈ names := by
  obtain ⟨spaceName, keyName, root, t, -, written⟩ := write_eq_ok written
  obtain ⟨names, listed, member⟩ := FileTree.files_of_write (isPlainName_of_isUnitName spaceName)
    (isPlainName_of_isUnitName keyName) written
  refine ⟨names, ?_, member⟩
  change d'.keys space = _
  rw [keys, checkName_eq_ok_iff.mpr spaceName, root]
  simp only [bind, Except.bind, listed]
  rfl

theorem units_of_read {d : Disk} {space key : String} {bs : Bytes}
    (found : Storage.read d space key = .ok (some bs)) : d.units space key = some bs := by
  change d.read space key = _ at found
  unfold read at found
  cases path : d.unitPath space key with
  | error e => simp [path, bind, Except.bind] at found
  | ok p =>
    obtain ⟨spaceName, keyName, rfl⟩ := unitPath_eq_ok_iff.mp path
    simp only [path, bind, Except.bind] at found
    split at found
    · rename_i content read
      cases found
      have stored := (FileTree.read_eq_ok_iff.mp read).2.2
      rw [d.root.place_unit (isPlainName_of_isUnitName spaceName) (isPlainName_of_isUnitName keyName)] at stored
      exact stored
    · cases found
    · cases found

instance : LawfulStorage Disk where
  units := units
  units_of_read := units_of_read
  units_of_write := units_of_write
  units_of_refused := units_of_refused
  read_of_write := read_of_write
  listed_of_write := listed_of_write

end Disk

end RowBase
