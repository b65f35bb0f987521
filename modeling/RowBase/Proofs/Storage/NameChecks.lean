import RowBase.Proofs.Reading
import RowBase.Proofs.Storage.Containment
import RowBase.Proofs.Storage.UnitCalls

namespace RowBase

theorem checkName_eq_error_iff {name : String} {e : Error} :
    checkName name = .error e ↔ isUnitName name = false ∧ e = .invalidKey name := by
  rw [checkName]
  cases isUnitName name <;> simp [eq_comm]

namespace UnitCall

variable {c : UnitCall} {space key name : String}

def unfit? (c : UnitCall) : Option String :=
  c.names.find? fun name => !isUnitName name

theorem isUnitName_of_unfit? (unfit : c.unfit? = some name) : isUnitName name = false := by
  simpa using List.find?_some unfit

theorem unfit?_of_pair (names : c.names = [space, key]) : c.unfit? = some name ↔
    isUnitName space = false ∧ name = space ∨ isUnitName space = true ∧ isUnitName key = false ∧ name = key := by
  rw [unfit?, names]
  cases spaceFit : isUnitName space <;> cases keyFit : isUnitName key <;> simp [spaceFit, keyFit, eq_comm]

theorem unfit?_of_single (names : c.names = [space]) :
    c.unfit? = some name ↔ isUnitName space = false ∧ name = space := by
  rw [unfit?, names]
  cases spaceFit : isUnitName space <;> simp [spaceFit, eq_comm]

def IsSet : UnitCall → Prop
  | set _ _ _ => True
  | get _ _ | keys _ | scan _ => False

def nothing : UnitCall → UnitAnswer
  | set _ _ _ => .done
  | get _ _ => .found none
  | keys _ => .listed []
  | scan _ => .scanned []

end UnitCall

namespace Storage

variable {σ : Type} [Storage σ]

def Refuses (store : σ) (c : UnitCall) (name : String) : Prop :=
  (serve store c).1 = .error (.invalidKey name)

def after (store : σ) (calls : List UnitCall) : σ :=
  calls.foldl (fun store c => (serve store c).2) store

theorem after_of_step {P : σ → Prop} (step : ∀ store c, P store → P (serve store c).2) {store : σ}
    (start : P store) (calls : List UnitCall) : P (after store calls) := by
  induction calls generalizing store with
  | nil => exact start
  | cons c calls ih => exact ih (step store c start)

section Refuses

variable (store : σ) {space key name : String} {bs : Bytes}

theorem refuses_set_iff : Refuses store (.set space key bs) name ↔
    (write store space key bs).1 = .error (.invalidKey name) := by
  simp only [Refuses, serve, Prod.map_fst, Except.map_eq_error_iff]

theorem refuses_get_iff : Refuses store (.get space key) name ↔ read store space key = .error (.invalidKey name) :=
  Except.map_eq_error_iff

theorem refuses_keys_iff : Refuses store (.keys space) name ↔ keys store space = .error (.invalidKey name) :=
  Except.map_eq_error_iff

theorem refuses_scan_iff : Refuses store (.scan space) name ↔ keys store space = .error (.invalidKey name) := by
  simp only [Refuses, serve, units, Except.map_eq_error_iff]

end Refuses

/-- An engine refuses the calls of some kinds, each for the first of its names that can stand for no unit. -/
def ChecksNames (σ : Type) [Storage σ] (checked : UnitCall → Prop) : Prop :=
  ∀ (store : σ) (c : UnitCall) (name : String), Refuses store c name ↔ checked c ∧ c.unfit? = some name

end Storage

theorem FileTree.save_ne_invalidKey (t : FileTree) (p : FilePath) (bs : Bytes) (name : String) :
    (t.save p bs).1 ≠ .error (.invalidKey name) := by
  have written (t : FileTree) : ((t.write p bs).map fun _ => ()).mapError (Error.writeFailed p.text) ≠
      .error (.invalidKey name) := by
    cases t.write p bs <;> simp [Except.map, Except.mapError]
  rw [save_result]
  cases p.parent? with
  | none => exact written t
  | some dir =>
    dsimp only
    rcases t.makeDirectories dir with ⟨_ | _, t'⟩
    · simp [Except.mapError, bind, Except.bind]
    · exact written t'

namespace Disk

variable {d : Disk} {space key name : String}

theorem unitPath_eq_invalidKey_iff : d.unitPath space key = .error (.invalidKey name) ↔
    isUnitName space = false ∧ name = space ∨ isUnitName space = true ∧ isUnitName key = false ∧ name = key := by
  simp only [unitPath, checkName]
  cases isUnitName space <;> cases isUnitName key <;> simp [bind, Except.bind, pure, Except.pure, @eq_comm _ name]

theorem write_eq_invalidKey_iff {bs : Bytes} :
    (Storage.write d space key bs).1 = .error (.invalidKey name) ↔
      d.unitPath space key = .error (.invalidKey name) := by
  change (d.write space key bs).1 = _ ↔ _
  rw [write]
  cases d.unitPath space key with
  | error e => simp
  | ok p => exact iff_of_false (d.tree.save_ne_invalidKey p bs name) (by simp)

theorem read_eq_invalidKey_iff :
    Storage.read d space key = .error (.invalidKey name) ↔ d.unitPath space key = .error (.invalidKey name) := by
  change d.read space key = _ ↔ _
  rw [read]
  cases d.unitPath space key with
  | error e => simp [bind, Except.bind]
  | ok p =>
    refine iff_of_false (fun failed => ?_) (by simp)
    cases file : d.tree.read p with
    | ok bs => simp [file, bind, Except.bind, pure, Except.pure] at failed
    | error f =>
      cases f <;> simp [file, bind, Except.bind, pure, Except.pure, throw, throwThe, MonadExceptOf.throw] at failed

theorem keys_eq_invalidKey_iff :
    Storage.keys d space = .error (.invalidKey name) ↔ checkName space = .error (.invalidKey name) := by
  change d.keys space = _ ↔ _
  rw [keys]
  cases checkName space with
  | error e => simp [bind, Except.bind]
  | ok =>
    refine iff_of_false (fun failed => ?_) (by simp)
    cases listed : d.tree.files (d.root.join space) with
    | ok names => simp [listed, bind, Except.bind, pure, Except.pure] at failed
    | error f =>
      cases f <;> simp [listed, bind, Except.bind, pure, Except.pure, throw, throwThe, MonadExceptOf.throw] at failed

theorem checksNames : Storage.ChecksNames Disk fun _ => True := by
  intro d c name
  rw [true_and]
  cases c with
  | set space key bs =>
    rw [Storage.refuses_set_iff, write_eq_invalidKey_iff, unitPath_eq_invalidKey_iff, UnitCall.unfit?_of_pair rfl]
  | get space key =>
    rw [Storage.refuses_get_iff, read_eq_invalidKey_iff, unitPath_eq_invalidKey_iff, UnitCall.unfit?_of_pair rfl]
  | keys space =>
    rw [Storage.refuses_keys_iff, keys_eq_invalidKey_iff, checkName_eq_error_iff, UnitCall.unfit?_of_single rfl]
    simp
  | scan space =>
    rw [Storage.refuses_scan_iff, keys_eq_invalidKey_iff, checkName_eq_error_iff, UnitCall.unfit?_of_single rfl]
    simp

end Disk

namespace Memory

theorem write_result_eq_ok_iff {m : Memory} {space key : String} {bs : Bytes} :
    (Storage.write m space key bs).1 = .ok () ↔ isUnitName space = true ∧ isUnitName key = true := by
  simp only [Storage.write, checkName]
  cases isUnitName space <;> cases isUnitName key <;> simp

theorem write_result_eq_error_iff {m : Memory} {space key : String} {bs : Bytes} {e : Error} :
    (Storage.write m space key bs).1 = .error e ↔
      isUnitName space = false ∧ e = .invalidKey space ∨
      isUnitName space = true ∧ isUnitName key = false ∧ e = .invalidKey key := by
  simp only [Storage.write, checkName]
  cases isUnitName space <;> cases isUnitName key <;> simp [@eq_comm _ e]

theorem checksNames : Storage.ChecksNames Memory UnitCall.IsSet := by
  intro m c name
  cases c with
  | set space key bs =>
    rw [Storage.refuses_set_iff, write_result_eq_error_iff, UnitCall.unfit?_of_pair rfl]
    simp [UnitCall.IsSet]
  | get | keys | scan => exact iff_of_false nofun fun refused => refused.1

def AllNamed (m : Memory) : Prop :=
  ∀ space key bs, m.find? space key = some bs → isUnitName space = true ∧ isUnitName key = true

namespace AllNamed

variable {m : Memory} (named : m.AllNamed)

include named

theorem serve (c : UnitCall) : (Storage.serve m c).2.AllNamed := by
  cases c with
  | set space key bs =>
    rcases written : Storage.write m space key bs with ⟨_ | _, m'⟩
    · rw [eq_of_refused written] at written
      simpa only [Storage.serve, written, Prod.map_snd, id_eq] using named
    · obtain ⟨spaceFit, keyFit, rfl⟩ := write_eq_ok_iff.mp written
      intro space' key' bs' found
      simp only [Storage.serve, written, Prod.map_snd, id_eq, find?_insert] at found
      rcases Units.set_eq_some found with ⟨rfl, rfl, -⟩ | found
      · exact ⟨spaceFit, keyFit⟩
      · exact named _ _ _ found
  | get | keys | scan => exact named

theorem keys_eq_nil {space : String} (unfit : isUnitName space = false) : m.keys space = [] := by
  refine List.eq_nil_iff_forall_not_mem.mpr fun key member => ?_
  obtain ⟨bs, found⟩ := m.mem_keys_iff.mp member
  rw [(named _ _ _ found).1] at unfit
  cases unfit

theorem serve_of_unfit {c : UnitCall} (reads : ¬c.IsSet) {name : String} (unfit : c.unfit? = some name) :
    (Storage.serve m c).1 = .ok c.nothing := by
  cases c with
  | set => exact absurd trivial reads
  | get space key =>
    have none : m.find? space key = none := by
      refine Option.eq_none_iff_forall_ne_some.mpr fun bs found => ?_
      obtain ⟨spaceFit, keyFit⟩ := named _ _ _ found
      rw [UnitCall.unfit?_of_pair rfl, spaceFit, keyFit] at unfit
      simp at unfit
    exact congrArg (fun found => Except.ok (UnitAnswer.found found)) none
  | keys space =>
    obtain ⟨unfit, -⟩ := (UnitCall.unfit?_of_single rfl).mp unfit
    exact congrArg (fun keys => Except.ok (UnitAnswer.listed keys)) (named.keys_eq_nil unfit)
  | scan space =>
    obtain ⟨unfit, -⟩ := (UnitCall.unfit?_of_single rfl).mp unfit
    have listed : Storage.keys m space = .ok [] := congrArg Except.ok (named.keys_eq_nil unfit)
    simp only [Storage.serve, Storage.units, listed]
    rfl

end AllNamed

theorem allNamed_after (calls : List UnitCall) : (Storage.after empty calls).AllNamed :=
  Storage.after_of_step (fun _ c named => named.serve c) (by simp [AllNamed, find?, empty]) calls

end Memory

end RowBase
