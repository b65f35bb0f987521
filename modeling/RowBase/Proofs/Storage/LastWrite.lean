import RowBase.Proofs.Storage.FreshDisk

namespace RowBase

/-- Memory and disk give what one map from namespaces and keys to bytes gives. Every call is carried out: a key has the
bytes that were set last, if any, a namespace has every key once that was set in it, in ascending order in memory, and
what is given for one namespace is not changed by a call on another. -/
theorem last_write_wins {calls : List UnitCall} (named : ∀ c ∈ calls, c.Named) :
    Storage.Simulates Text.Ascending UnitCall.Named Memory.empty Units.empty calls ∧
    ∀ d : Disk, d.Fresh → (∀ c ∈ calls, c.Fits d.root) →
      Storage.Simulates (fun _ => True) (fun c => c.Named ∧ c.Fits d.root) d Units.empty calls := by
  refine ⟨?_, fun d fresh fits => ?_⟩
  · exact Storage.simulates_of_serves (fun _ => True) (fun m _ => m.serves) (fun _ _ _ _ => trivial) trivial named
  · -- The calls change the tree, but not the root that paths start from.
    have serves (store : Disk) (good : store.Tidy ∧ store.root = d.root) :
        Storage.Serves (fun c => c.Named ∧ c.Fits d.root) store := by
      rw [← good.2]
      exact good.1.serves
    have kept (store : Disk) (c : UnitCall) (good : store.Tidy ∧ store.root = d.root)
        (allowed : c.Named ∧ c.Fits d.root) :
        (Storage.serve store c).2.Tidy ∧ (Storage.serve store c).2.root = d.root := by
      rw [← good.2] at allowed
      obtain ⟨tidy, root⟩ := good.1.of_serve allowed.1 allowed.2
      exact ⟨tidy, root.trans good.2⟩
    have run := Storage.simulates_of_serves _ serves kept ⟨fresh.tidy, rfl⟩ fun c member =>
      ⟨named c member, fits c member⟩
    have units : LawfulStorage.units d = Units.empty := fresh.units_eq
    rw [units] at run
    exact run.mono fun _ _ => trivial

def twoSpaces : List UnitCall :=
  [.keys "t", .set "t" "k" [1], .set "u" "k" [], .set "t" "a" [2], .set "t" "k" [3], .get "t" "k", .get "u" "a", .scan "t"]

theorem last_write_wins_twoSpaces :
    (∀ c ∈ twoSpaces, c.Named) ∧ Disk.Fresh ⟨.empty, ⟨"data"⟩⟩ ∧ (∀ c ∈ twoSpaces, c.Fits ⟨"data"⟩) ∧
    Storage.Simulates Text.Ascending UnitCall.Named Memory.empty Units.empty twoSpaces ∧
    Storage.Simulates (fun _ => True) (fun c => c.Named ∧ c.Fits ⟨"data"⟩) (⟨.empty, ⟨"data"⟩⟩ : Disk) Units.empty
      twoSpaces := by
  have named : ∀ c ∈ twoSpaces, c.Named := by decide
  have fresh : Disk.Fresh ⟨.empty, ⟨"data"⟩⟩ := Disk.fresh_of_empty (by decide) (by decide)
  have fits : ∀ c ∈ twoSpaces, c.Fits ⟨"data"⟩ := by decide
  obtain ⟨memory, disk⟩ := last_write_wins named
  exact ⟨named, fresh, fits, memory, disk _ fresh fits⟩

def deep (name : String) : Nat → FilePath
  | 0 => ⟨"/"⟩
  | n + 1 => (deep name n).join name

section Deep

variable {name : String} (unit : isUnitName name = true)

include unit

theorem isClean_deep (n : Nat) : (deep name n).IsClean := by
  induction n with
  | zero => exact (by decide : FilePath.IsClean ⟨"/"⟩)
  | succ n ih => exact ih.join unit

theorem names_deep (n : Nat) : (deep name n).names = List.replicate n name := by
  induction n with
  | zero => exact (by decide : FilePath.names ⟨"/"⟩ = [])
  | succ n ih => rw [deep, FilePath.names_join _ (isPlainName_of_isUnitName unit), ih, List.replicate_succ']

theorem size_deep (n : Nat) : n * name.utf8ByteSize ≤ (deep name n).text.utf8ByteSize := by
  induction n with
  | zero => simp
  | succ n ih =>
    have longer := (deep name n).utf8ByteSize_join_le (isPlainName_of_isUnitName unit)
    rw [deep, Nat.succ_mul]
    omega

theorem fresh_deep (short : name.utf8ByteSize ≤ 255) (n : Nat) : Disk.Fresh ⟨.empty, deep name n⟩ := by
  refine Disk.fresh_of_empty (isClean_deep unit n) fun other member => ?_
  rw [names_deep unit] at member
  rw [List.eq_of_mem_replicate member]
  exact ⟨(isPlainName_of_isUnitName unit).notUp, short⟩

theorem not_written_deep {n : Nat} (long : 4095 < (n + 2) * name.utf8ByteSize) (bs : Bytes) (d : Disk) :
    Storage.write (⟨.empty, deep name n⟩ : Disk) name name bs ≠ (.ok (), d) := by
  intro written
  have path : (UnitCall.set name name bs).path (deep name n) = deep name (n + 2) := rfl
  have fits := Disk.fits_of_write written
  dsimp only [UnitCall.Fits] at fits
  rw [path] at fits
  have size := size_deep unit (n + 2)
  omega

end Deep

theorem utf8ByteSize_replicate (n : Nat) (c : Char) :
    (String.ofList (List.replicate n c)).utf8ByteSize = n * c.utf8Size := by
  induction n with
  | zero => simp
  | succ n ih =>
    rw [List.replicate_succ, String.ofList_cons, String.utf8ByteSize_append, String.utf8ByteSize_singleton, ih,
      Nat.succ_mul, Nat.add_comm]

theorem isUnitName_replicate {n : Nat} (long : 2 < n) : isUnitName (.ofList (List.replicate n 'a')) = true := by
  have apart {s : String} (short : s.toList.length ≤ 2) : String.ofList (List.replicate n 'a') ≠ s := by
    intro same
    rw [← same, String.toList_ofList, List.length_replicate] at short
    omega
  have chars : ∀ c ∈ List.replicate n 'a', (c != '/' && c != '\\' && c.toNat != 0) = true := by
    intro c member
    rw [List.eq_of_mem_replicate member]
    decide
  simp [isUnitName, apart (s := "") (by decide), apart (s := ".") (by decide), apart (s := "..") (by decide)]

theorem exists_longest_name : ∃ name, isUnitName name = true ∧ name.utf8ByteSize = 255 :=
  ⟨_, isUnitName_replicate (by decide : 2 < 255), utf8ByteSize_replicate 255 'a'⟩

/-- A path that is too long is refused, even if its names are not: where the root lies fifteen levels deep, a namespace
and a key of 255 bytes each are too much. -/
theorem deep_unit_refused : ¬∀ calls : List UnitCall, (∀ c ∈ calls, c.Named) →
    Storage.Simulates Text.Ascending UnitCall.Named Memory.empty Units.empty calls ∧
    ∀ d : Disk, d.Fresh → Storage.Simulates (fun _ => True) UnitCall.Named d Units.empty calls := by
  intro simulate
  obtain ⟨name, unit, size⟩ := exists_longest_name
  have short := Nat.le_of_eq size
  have named : ∀ c ∈ [UnitCall.set name name []], c.Named := by
    simp [UnitCall.Named, UnitCall.names, unit, short]
  have run := (simulate _ named).2 ⟨.empty, deep name 15⟩ (fresh_deep unit short 15)
  cases run with
  | cons answered _ _ =>
    obtain ⟨_, written⟩ := Storage.write_of_answered answered
    have long : 4095 < (15 + 2) * name.utf8ByteSize := by rw [size]; decide
    exact not_written_deep unit long [] _ written

end RowBase
