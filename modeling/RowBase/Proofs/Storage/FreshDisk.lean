import RowBase.Proofs.Storage.DiskUnits
import RowBase.Proofs.Storage.UnitCalls

namespace RowBase

def FilePath.IsClean (p : FilePath) : Prop :=
  ∀ c ∈ p.text.toList, c.toNat ≠ 0

instance (p : FilePath) : Decidable p.IsClean :=
  List.decidableBAll _ _

theorem FilePath.IsClean.join {p : FilePath} (clean : p.IsClean) {name : String} (unit : isUnitName name = true) :
    (p.join name).IsClean := by
  intro c member
  rcases p.mem_join (isPlainName_of_isUnitName unit) member with inside | rfl | inside
  · exact clean c inside
  · decide
  · simp only [isUnitName, Bool.and_eq_true, List.all_eq_true, bne_iff_ne] at unit
    exact (unit.2 c inside).2

namespace FileTree

theorem isTooLong_eq_false_iff {name : String} : isTooLong name = false ↔ name.utf8ByteSize ≤ 255 := by
  simp [isTooLong]

theorem checkPath_join {p : FilePath} (clean : p.IsClean) {name : String} (unit : isUnitName name = true)
    (short : (p.join name).text.utf8ByteSize ≤ 4095) : checkPath (p.join name) = .ok () := by
  have clean : ∀ c ∈ (p.join name).text.toList, c.toNat ≠ 0 := clean.join unit
  have nul : (p.join name).text.toList.any (·.toNat == 0) = false := by simpa using clean
  have long : isPathTooLong (p.join name) = false := by
    simpa [isPathTooLong] using short
  simp [checkPath, nul, long, p.ne_empty_join (isPlainName_of_isUnitName unit)]

theorem size_of_checkPath {p : FilePath} (checked : checkPath p = .ok ()) : p.text.utf8ByteSize ≤ 4095 := by
  unfold checkPath at checked
  split at checked
  · simp at checked
  · split at checked
    · simp at checked
    · split at checked
      · simp at checked
      · rename_i short
        simpa [isPathTooLong] using short

theorem write_join {t : FileTree} {p : FilePath} {name : String} (plain : IsPlainName name)
    (checked : checkPath (p.join name) = .ok ()) (short : isTooLong name = false) {dir : List String}
    (walked : t.walk [] p.names = .ok dir) (other : t.node? (dir ++ [name]) ≠ some .directory) (bs : Bytes) :
    t.write (p.join name) bs = .ok (t.insert (dir ++ [name]) (.file bs)) := by
  rw [write, checked, p.endsInSlash_join plain, locate_join t plain checked, walked]
  simp only [bind, Except.bind, lookIn_of_short t dir plain short]
  cases found : t.node? (dir ++ [name]) with
  | none => rfl
  | some n =>
    cases n with
    | file => rfl
    | directory => exact absurd found other

theorem read_join {t : FileTree} {p : FilePath} {name : String} (plain : IsPlainName name)
    (checked : checkPath (p.join name) = .ok ()) (short : isTooLong name = false) {dir : List String}
    (walked : t.walk [] p.names = .ok dir) (other : t.node? (dir ++ [name]) ≠ some .directory) :
    t.read (p.join name) = (t.file? (dir ++ [name])).elim (.error .notFound) .ok := by
  rw [read, locate_join t plain checked, walked]
  simp only [bind, Except.bind, lookIn_of_short t dir plain short, file?, p.endsInSlash_join plain]
  cases found : t.node? (dir ++ [name]) with
  | none => rfl
  | some n =>
    cases n with
    | file => rfl
    | directory => exact absurd found other

theorem locate_of_missing {t : FileTree} {p : FilePath} {name : String} (plain : IsPlainName name)
    (checked : checkPath (p.join name) = .ok ()) {f : FileFault} (missing : t.walk [] p.names = .error f) :
    t.locate (p.join name) = .error f := by
  rw [locate_join t plain checked, missing]
  rfl

theorem GrownAlong.node?_ne_directory {names : List String} {t t' : FileTree} (grown : GrownAlong names t t')
    {place : List String} (other : t.node? place ≠ some .directory)
    (beside : ∀ way, way <+: names → follow [] way ≠ place) : t'.node? place ≠ some .directory := by
  cases found : t.node? place with
  | some n =>
    rw [grown.kept place n found, ← found]
    exact other
  | none =>
    rcases grown.made place found with free | ⟨-, way, along, same⟩
    · simp [free]
    · exact absurd same.symm (beside way along)

theorem save_join {t : FileTree} {p : FilePath} {space key : String} (spaceName : IsPlainName space)
    (keyName : IsPlainName key) (passable : t.Passable (p.names ++ [space]))
    (checked : checkPath ((p.join space).join key) = .ok ()) (short : isTooLong key = false)
    (other : t.node? (follow [] p.names ++ [space, key]) ≠ some .directory)
    (beside : ∀ way, way <+: p.names ++ [space] → follow [] way ≠ follow [] p.names ++ [space, key]) (bs : Bytes) :
    (t.save ((p.join space).join key) bs).1 = .ok () := by
  obtain ⟨t', made, walked⟩ := passable.makeAlong false
  rw [follow_concat p.names spaceName.notUp] at walked
  have grown := grown_makeAlong t false [] (p.names ++ [space])
  rw [List.nil_append, follow, made] at grown
  have directories : t.makeDirectories (p.join space) = (.ok (), t') := by
    rw [makeDirectories, if_neg (p.ne_empty_join spaceName),
      checkPath_of_join keyName (p.ne_empty_join spaceName) checked, endsInDot_join p spaceName, p.names_join spaceName]
    exact made
  have other' := grown.node?_ne_directory other beside
  rw [← p.names_join spaceName] at walked
  have written := write_join keyName checked short walked (by simpa using other') bs
  rw [save, FilePath.parent?_join p spaceName keyName]
  simp only [directories, written]

theorem node?_of_walk {t : FileTree} {dir dir' names : List String}
    (below : ∀ way, way <+: dir → t.node? way = some .directory) (walked : t.walk dir names = .ok dir') :
    ∀ way, way <+: dir' → t.node? way = some .directory := by
  induction names generalizing dir with
  | nil =>
    cases walked
    exact below
  | cons name names ih =>
    obtain ⟨next, entered, walked⟩ := walk_cons_eq_ok_iff.mp walked
    obtain ⟨place, found⟩ := enter_eq_ok entered
    refine ih (fun way along => ?_) walked
    by_cases up : name = ".."
    · rw [place, if_pos up] at along
      exact below way (along.trans (List.dropLast_prefix dir))
    · rw [place, if_neg up] at along
      rcases List.prefix_concat_iff.mp along with rfl | before
      · rw [place, if_neg up] at found
        exact (found up).2
      · exact below way before

theorem node?_of_walk_top {t : FileTree} {dir names : List String} (walked : t.walk [] names = .ok dir) {way : List String}
    (along : way <+: names) : t.node? (follow [] way) = some .directory := by
  obtain ⟨rest, rfl⟩ := along
  obtain ⟨mid, walked, -⟩ := walk_append_eq_ok_iff.mp walked
  rw [← eq_follow_of_walk walked]
  refine node?_of_walk (fun way along => ?_) walked mid (List.prefix_refl mid)
  rw [List.prefix_nil.mp along]
  rfl

theorem follow_of_down {dir names : List String} (down : ∀ name ∈ names, name ≠ "..") :
    follow dir names = dir ++ names := by
  induction names generalizing dir with
  | nil => rw [follow, List.append_nil]
  | cons name names ih =>
    rw [follow, if_neg (down name (by simp)), ih fun other member => down other (by simp [member]), List.append_assoc,
      List.singleton_append]

theorem Passable.of_prefix {t : FileTree} {names more : List String} (passable : t.Passable more) (start : names <+: more) :
    t.Passable names where
  short name member := passable.short name (start.subset member)
  free way along := passable.free way (along.trans start)

theorem Passable.concat {t : FileTree} {names : List String} (passable : t.Passable names) {name : String}
    (down : name ≠ "..") (short : isTooLong name = false) (free : t.file? (follow [] names ++ [name]) = none) :
    t.Passable (names ++ [name]) where
  short other member := by
    rcases List.mem_append.mp member with before | last
    · exact passable.short other before
    · rw [List.mem_singleton.mp last]
      exact fun _ => short
  free way along := by
    rcases List.prefix_concat_iff.mp along with rfl | before
    · rw [follow_concat names down]
      exact free
    · exact passable.free way before

theorem files_join {t : FileTree} {p : FilePath} {name : String} (plain : IsPlainName name)
    (checked : checkPath (p.join name) = .ok ()) (short : isTooLong name = false)
    (passable : t.Passable (p.names ++ [name])) :
    t.files (p.join name) = .ok (t.nodes.entries.filterMap (fileName? (follow [] (p.names ++ [name])))) ∨
      t.files (p.join name) = .error .notFound ∧
        t.walk [] (p.names ++ [name]) ≠ .ok (follow [] (p.names ++ [name])) := by
  have free := passable.free _ (List.prefix_refl _)
  rw [follow_concat _ plain.notUp] at free ⊢
  rcases (passable.of_prefix (List.prefix_append _ _)).walk with walked | missing
  · have located : t.locate (p.join name) = .ok (follow [] p.names ++ [name], t.node? (follow [] p.names ++ [name])) :=
      (locate_join_eq_ok_iff plain).mpr ⟨checked, short, _, walked, rfl, rfl⟩
    rw [files, located]
    cases found : t.node? (follow [] p.names ++ [name]) with
    | none =>
      refine .inr ⟨rfl, fun inside => ?_⟩
      have directory := node?_of_walk_top inside (List.prefix_refl _)
      rw [follow_concat _ plain.notUp, found] at directory
      simp at directory
    | some n =>
      cases n with
      | file bs =>
        rw [file?_eq_some_iff.mpr found] at free
        simp at free
      | directory => exact .inl rfl
  · refine .inr ⟨by rw [files, locate_of_missing plain checked missing]; rfl, fun inside => ?_⟩
    obtain ⟨mid, outer, -⟩ := walk_append_eq_ok_iff.mp inside
    rw [missing] at outer
    simp at outer

end FileTree

def UnitCall.path (c : UnitCall) (root : FilePath) : FilePath :=
  c.names.foldl FilePath.join root

/-- Paths may have up to 4095 bytes. -/
def UnitCall.Fits (c : UnitCall) (root : FilePath) : Prop :=
  (c.path root).text.utf8ByteSize ≤ 4095

instance (c : UnitCall) (root : FilePath) : Decidable (c.Fits root) :=
  Nat.decLe _ _

namespace Disk

open FileTree

def place (d : Disk) : List String :=
  follow [] d.root.names

/-- Nothing lies below the root yet, no file stands in the way to it, and no name on the way leads below it. The root
itself and directories on the way may be missing. -/
structure Fresh (d : Disk) : Prop where
  clean : d.root.IsClean
  passable : d.tree.Passable d.root.names
  empty : ∀ names, names ≠ [] → d.tree.node? (d.place ++ names) = none
  outside : ∀ way, way <+: d.root.names → ∀ names, names ≠ [] → follow [] way ≠ d.place ++ names

theorem fresh_of_empty {root : FilePath} (clean : root.IsClean)
    (down : ∀ name ∈ root.names, name ≠ ".." ∧ name.utf8ByteSize ≤ 255) : Fresh ⟨.empty, root⟩ where
  clean := clean
  passable := ⟨fun name member _ => isTooLong_eq_false_iff.mpr (down name member).2, fun way _ => file?_empty _⟩
  empty names filled := node?_empty (by simp [filled])
  outside way along names filled same := by
    have followed {ns : List String} (part : ns <+: root.names) : follow [] ns = ns :=
      follow_of_down fun name member => (down name (part.subset member)).1
    rw [place, followed along, followed (List.prefix_refl _)] at same
    have shorter : way.length ≤ root.names.length := along.length_le
    rw [same, List.length_append] at shorter
    change root.names.length + names.length ≤ root.names.length at shorter
    have positive := List.length_pos_iff.mpr filled
    omega

/-- No file lies below the root, and none stands in the way to it. -/
structure Bare (d : Disk) : Prop where
  clean : d.root.IsClean
  passable : d.tree.Passable d.root.names
  free : ∀ names, names ≠ [] → d.tree.file? (d.place ++ names) = none

theorem Fresh.bare {d : Disk} (fresh : d.Fresh) : d.Bare where
  clean := fresh.clean
  passable := fresh.passable
  free names filled := by rw [file?, fresh.empty names filled]

theorem keys_of_passable {d : Disk} {space : String} (clean : d.root.IsClean) (named : (UnitCall.keys space).Named)
    (fits : (UnitCall.keys space).Fits d.root) (passable : d.tree.Passable (d.root.names ++ [space])) :
    Storage.keys d space = .ok (d.tree.nodes.entries.filterMap (fileName? (d.place ++ [space]))) ∨
      Storage.keys d space = .ok [] ∧ d.tree.walk [] (d.root.names ++ [space]) ≠ .ok (d.place ++ [space]) := by
  obtain ⟨unit, short⟩ := named space (by simp [UnitCall.names])
  have plain := isPlainName_of_isUnitName unit
  have keys_eq : Storage.keys d space = d.keys space := rfl
  rw [keys_eq, keys, checkName_eq_ok_iff.mpr unit, place, ← follow_concat _ plain.notUp]
  simp only [bind, Except.bind]
  rcases files_join plain (checkPath_join clean unit fits) (isTooLong_eq_false_iff.mpr short) passable with
    files | ⟨files, missing⟩
  · rw [files]
    exact .inl rfl
  · rw [files]
    exact .inr ⟨rfl, missing⟩

/-- What the calls keep: namespaces are directories and units are files, wherever something lies at all. -/
structure Tidy (d : Disk) : Prop where
  clean : d.root.IsClean
  passable : d.tree.Passable d.root.names
  outside : ∀ way, way <+: d.root.names → ∀ names, names ≠ [] → follow [] way ≠ d.place ++ names
  spaces : ∀ space, d.tree.file? (d.place ++ [space]) = none
  keys : ∀ space key, d.tree.node? (d.place ++ [space, key]) ≠ some .directory
  stored : ∀ space key bs, d.units space key = some bs → (UnitCall.get space key).Named ∧ (UnitCall.get space key).Fits d.root ∧
    d.tree.walk [] (d.root.names ++ [space]) = .ok (d.place ++ [space])

theorem Fresh.units_eq {d : Disk} (fresh : d.Fresh) : d.units = Units.empty := by
  funext space key
  have free : d.tree.node? (d.place ++ [space, key]) = none := fresh.empty _ (by simp)
  rw [units, file?, ← place, free]
  rfl

theorem Fresh.tidy {d : Disk} (fresh : d.Fresh) : d.Tidy where
  clean := fresh.clean
  passable := fresh.passable
  outside := fresh.outside
  spaces space := by rw [file?, fresh.empty _ (by simp)]
  keys space key := by simp [fresh.empty]
  stored space key bs found := by
    rw [fresh.units_eq] at found
    cases found

theorem tree_of_write {d d' : Disk} {space key : String} {bs : Bytes}
    (written : Storage.write d space key bs = (.ok (), d')) : ∃ t : FileTree, GrownAlong (d.root.names ++ [space]) d.tree t ∧
      d' = ⟨t.insert (d.place ++ [space, key]) (.file bs), d.root⟩ ∧
      d'.tree.walk [] (d.root.names ++ [space]) = .ok (d.place ++ [space]) := by
  obtain ⟨spaceUnit, keyUnit, root, t, grown, written⟩ := write_eq_ok written
  have spaceName := isPlainName_of_isUnitName spaceUnit
  obtain ⟨-, tree, walked⟩ := write_join_eq_ok (isPlainName_of_isUnitName keyUnit) written
  rw [d.root.place_join spaceName, List.append_assoc, List.singleton_append] at tree
  rw [d.root.place_join spaceName, d.root.names_join spaceName] at walked
  refine ⟨t, grown, ?_, walked⟩
  rw [place, ← FilePath.place, ← tree, ← root]

theorem fits_of_write {d d' : Disk} {space key : String} {bs : Bytes}
    (written : Storage.write d space key bs = (.ok (), d')) : (UnitCall.set space key bs).Fits d.root := by
  obtain ⟨-, -, -, t, -, written⟩ := write_eq_ok written
  exact size_of_checkPath (leads_of_write written).2.1.checked

namespace Tidy

variable {d : Disk} {space key : String}

theorem beside (tidy : d.Tidy) (spaceName : IsPlainName space) (space' key' : String) :
    ∀ way, way <+: d.root.names ++ [space] → follow [] way ≠ d.place ++ [space', key'] := by
  intro way along
  rcases List.prefix_concat_iff.mp along with rfl | before
  · rw [follow_concat _ spaceName.notUp]
    exact fun same => by simp [place] at same
  · exact tidy.outside way before _ (by simp)

theorem passable_space (tidy : d.Tidy) (spaceName : IsPlainName space) (short : isTooLong space = false) :
    d.tree.Passable (d.root.names ++ [space]) :=
  tidy.passable.concat spaceName.notUp short (tidy.spaces space)

theorem units_eq_none (tidy : d.Tidy) (missing : d.tree.walk [] (d.root.names ++ [space]) ≠ .ok (d.place ++ [space]))
    (key : String) : d.units space key = none := by
  cases found : d.units space key with
  | none => rfl
  | some bs => exact absurd (tidy.stored space key bs found).2.2 missing

theorem write (tidy : d.Tidy) {bs : Bytes} (named : (UnitCall.set space key bs).Named) (fits : (UnitCall.set space key bs).Fits d.root) :
    (Storage.write d space key bs).1 = .ok () := by
  obtain ⟨spaceUnit, spaceShort⟩ := named space (by simp [UnitCall.names])
  obtain ⟨keyUnit, keyShort⟩ := named key (by simp [UnitCall.names])
  have spaceName := isPlainName_of_isUnitName spaceUnit
  have keyName := isPlainName_of_isUnitName keyUnit
  have checked := checkPath_join (tidy.clean.join spaceUnit) keyUnit fits
  have saved := save_join spaceName keyName (tidy.passable_space spaceName (isTooLong_eq_false_iff.mpr spaceShort)) checked
    (isTooLong_eq_false_iff.mpr keyShort) (tidy.keys space key) (tidy.beside spaceName space key) bs
  change (d.write space key bs).1 = .ok ()
  rw [Disk.write, unitPath_eq_ok_iff.mpr ⟨spaceUnit, keyUnit, rfl⟩]
  exact saved

theorem of_write (tidy : d.Tidy) {bs : Bytes} (named : (UnitCall.set space key bs).Named)
    (fits : (UnitCall.set space key bs).Fits d.root) {d' : Disk} (written : Storage.write d space key bs = (.ok (), d')) : d'.Tidy := by
  have units := units_of_write written
  have beside := tidy.beside (isPlainName_of_isUnitName (named space (by simp [UnitCall.names])).1)
  -- Directories are made on the way to the unit first, so none of them is where a unit lies.
  obtain ⟨t, grown, rfl, walked⟩ := tree_of_write written
  have below : d.place ++ [space, key] ≠ [] := by simp
  have other : t.node? (d.place ++ [space, key]) ≠ some .directory :=
    grown.node?_ne_directory (tidy.keys space key) (beside space key)
  have file? {names : List String} (apart : names ≠ d.place ++ [space, key]) :
      (t.insert (d.place ++ [space, key]) (.file bs)).file? names = d.tree.file? names := by
    rw [file?_insert_file t below, if_neg apart, grown.file?_eq]
  refine ⟨tidy.clean, ⟨tidy.passable.short, fun way along => ?_⟩, tidy.outside, fun space' => ?_, fun space' key' => ?_,
    fun space' key' bs' found => ?_⟩
  · rw [file? (tidy.outside way along _ (by simp))]
    exact tidy.passable.free way along
  · have apart : d.place ++ [space'] ≠ d.place ++ [space, key] := by simp
    rw [← tidy.spaces space']
    exact file? apart
  · change (t.insert (d.place ++ [space, key]) (.file bs)).node? (d.place ++ [space', key']) ≠ some .directory
    by_cases same : d.place ++ [space, key] = d.place ++ [space', key']
    · rw [← same, t.node?_insert_self below]
      simp
    · rw [t.node?_insert_ne same]
      exact grown.node?_ne_directory (tidy.keys space' key') (beside space' key')
  · rw [units] at found
    rcases Units.set_eq_some found with ⟨rfl, rfl, -⟩ | found
    · exact ⟨named, fits, walked⟩
    · obtain ⟨named', fits', walked'⟩ := tidy.stored space' key' bs' found
      exact ⟨named', fits', walk_insert_file below other bs (walk_of_kept grown.kept walked')⟩

theorem read (tidy : d.Tidy) (named : (UnitCall.get space key).Named) (fits : (UnitCall.get space key).Fits d.root) :
    Storage.read d space key = .ok (d.units space key) := by
  obtain ⟨spaceUnit, spaceShort⟩ := named space (by simp [UnitCall.names])
  obtain ⟨keyUnit, keyShort⟩ := named key (by simp [UnitCall.names])
  have spaceName := isPlainName_of_isUnitName spaceUnit
  have keyName := isPlainName_of_isUnitName keyUnit
  have checked := checkPath_join (tidy.clean.join spaceUnit) keyUnit fits
  have path : d.unitPath space key = .ok ((d.root.join space).join key) :=
    unitPath_eq_ok_iff.mpr ⟨spaceUnit, keyUnit, rfl⟩
  change d.read space key = _
  rw [Disk.read, path]
  simp only [bind, Except.bind]
  rcases (tidy.passable_space spaceName (isTooLong_eq_false_iff.mpr spaceShort)).walk with walked | missing
  · rw [follow_concat _ spaceName.notUp, ← d.root.names_join spaceName] at walked
    have other := tidy.keys space key
    rw [place, ← List.singleton_append, ← List.append_assoc] at other
    rw [read_join keyName checked (isTooLong_eq_false_iff.mpr keyShort) walked other, units, List.append_assoc,
      List.singleton_append]
    cases d.tree.file? (follow [] d.root.names ++ [space, key]) <;> rfl
  · have none := tidy.units_eq_none (by rw [missing]; simp) key
    rw [← d.root.names_join spaceName] at missing
    rw [FileTree.read, locate_of_missing keyName checked missing, none]
    rfl

theorem listed (tidy : d.Tidy) (named : (UnitCall.keys space).Named) (fits : (UnitCall.keys space).Fits d.root) :
    ∃ keys, Storage.keys d space = .ok keys ∧ Text.Ascending keys ∧
      ∀ key, key ∈ keys ↔ ∃ bs, d.units space key = some bs := by
  obtain ⟨unit, short⟩ := named space (by simp [UnitCall.names])
  have passable := tidy.passable_space (isPlainName_of_isUnitName unit) (isTooLong_eq_false_iff.mpr short)
  rcases keys_of_passable tidy.clean named fits passable with keys | ⟨keys, missing⟩
  · refine ⟨_, keys, Text.ascending_iff.mpr (pairwise_listing _ _), fun key => ?_⟩
    rw [mem_listing_iff, List.append_assoc, List.singleton_append]
    rfl
  · exact ⟨[], keys, .nil, fun key => by simp [tidy.units_eq_none missing]⟩

theorem serves (tidy : d.Tidy) : Storage.Serves (fun c => c.Named ∧ c.Fits d.root) d where
  write _ _ _ allowed := tidy.write allowed.1 allowed.2
  read _ _ allowed := tidy.read allowed.1 allowed.2
  stored space key bs found := by
    obtain ⟨named, fits, -⟩ := tidy.stored space key bs found
    rw [tidy.read named fits]
    exact congrArg Except.ok found
  keys _ allowed := by
    -- Listing and scanning are about the same names.
    rcases allowed with ⟨named, fits⟩ | ⟨named, fits⟩
    · exact tidy.listed named fits
    · exact tidy.listed named fits

theorem of_serve (tidy : d.Tidy) {c : UnitCall} (named : c.Named) (fits : c.Fits d.root) :
    (Storage.serve d c).2.Tidy ∧ (Storage.serve d c).2.root = d.root := by
  cases c with
  | set space key bs =>
    have written : Storage.write d space key bs = (.ok (), (Storage.write d space key bs).2) :=
      Prod.ext (tidy.write named fits) rfl
    obtain ⟨t, -, made, -⟩ := tree_of_write written
    have same := congrArg root made
    exact ⟨tidy.of_write named fits written, same⟩
  | get | keys | scan => exact ⟨tidy, rfl⟩

end Tidy

end Disk

end RowBase
