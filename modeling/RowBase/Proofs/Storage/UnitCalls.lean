import Mathlib.Data.List.Forall2
import RowBase.Proofs.Storage.Units
import RowBase.Proofs.Text.Order

namespace RowBase

inductive UnitCall
  | set (space key : String) (bs : Bytes)
  | get (space key : String)
  | keys (space : String)
  | scan (space : String)

inductive UnitAnswer
  | done
  | found (bs : Option Bytes)
  | listed (keys : List String)
  | scanned (units : List (String × Except Error Bytes))

namespace UnitCall

def space : UnitCall → String
  | set space _ _ | get space _ | keys space | scan space => space

def names : UnitCall → List String
  | set space key _ | get space key => [space, key]
  | keys space | scan space => [space]

/-- The names of a call can stand for units, and files can have them. -/
def Named (c : UnitCall) : Prop :=
  ∀ name ∈ c.names, isUnitName name = true ∧ name.utf8ByteSize ≤ 255

instance (c : UnitCall) : Decidable c.Named :=
  List.decidableBAll _ _

/-- What a call does to a map: the last bytes that are set win. -/
def apply (u : Units Bytes) : UnitCall → Units Bytes
  | set space key bs => u.set space key bs
  | get _ _ | keys _ | scan _ => u

theorem apply_of_space_ne (u : Units Bytes) {c : UnitCall} {space : String} (other : space ≠ c.space) :
    c.apply u space = u space := by
  cases c with
  | set =>
    funext key
    exact Units.set_of_ne u (fun same => other same.1) _
  | get | keys | scan => rfl

end UnitCall

structure Units.IsListing {α : Type} (u : Units α) (space : String) (keys : List String) : Prop where
  once : keys.Nodup
  complete : ∀ key, key ∈ keys ↔ ∃ a, u space key = some a

/-- What a map gives for a call. There is a condition on the order of its listings. -/
inductive Answered (order : List String → Prop) (u : Units Bytes) : UnitCall → Except Error UnitAnswer → Prop
  | set {space key : String} {bs : Bytes} : Answered order u (.set space key bs) (.ok .done)
  | get {space key : String} : Answered order u (.get space key) (.ok (.found (u space key)))
  | keys {space : String} {keys : List String} (listing : u.IsListing space keys) (ordered : order keys) :
      Answered order u (.keys space) (.ok (.listed keys))
  | scan {space : String} {keys : List String} {units : List (String × Except Error Bytes)}
      (listing : u.IsListing space keys) (ordered : order keys)
      (each : List.Forall₂ (fun key unit => ∃ bs, u space key = some bs ∧ unit = (key, .ok bs)) keys units) :
      Answered order u (.scan space) (.ok (.scanned units))

namespace Answered

variable {order order' : List String → Prop} {u u' : Units Bytes} {c : UnitCall} {a a' : Except Error UnitAnswer}

theorem mono (answered : Answered order u c a) (weaker : ∀ keys, order keys → order' keys) : Answered order' u c a := by
  cases answered with
  | set => exact .set
  | get => exact .get
  | keys listing ordered => exact .keys listing (weaker _ ordered)
  | scan listing ordered each => exact .scan listing (weaker _ ordered) each

theorem eq_of_space_eq (answered : Answered Text.Ascending u c a) (answered' : Answered Text.Ascending u' c a')
    (same : u c.space = u' c.space) : a = a' := by
  have keys_eq {space : String} (same : u space = u' space) {keys keys' : List String} (listing : u.IsListing space keys)
      (listing' : u'.IsListing space keys') (ascending : Text.Ascending keys) (ascending' : Text.Ascending keys') : keys = keys' := by
    refine ascending.eq_of_mem_iff ascending' fun key => ?_
    rw [listing.complete, listing'.complete, same]
  cases answered with
  | set =>
    cases answered'
    rfl
  | @get space key =>
    cases answered'
    rw [show u space key = u' space key from congrFun same key]
  | keys listing ordered =>
    cases answered' with
    | keys listing' ordered' => rw [keys_eq same listing listing' ordered ordered']
  | @scan space keys units listing ordered each =>
    cases answered' with
    | @scan _ keys' units' listing' ordered' each' =>
      cases keys_eq same listing listing' ordered ordered'
      have same : ∀ key, u space key = u' space key := congrFun same
      simp only [← same] at each'
      have units_eq : units = units' := by
        refine List.right_unique_forall₂' (fun key unit unit' stored stored' => ?_) each each'
        obtain ⟨bs, found, rfl⟩ := stored
        obtain ⟨bs', found', rfl⟩ := stored'
        rw [found] at found'
        cases found'
        rfl
      rw [units_eq]

end Answered

namespace Storage

variable {σ : Type} [Storage σ]

def serve (store : σ) : UnitCall → Except Error UnitAnswer × σ
  | .set space key bs => (write store space key bs).map (·.map fun () => .done) id
  | .get space key => ((read store space key).map .found, store)
  | .keys space => ((keys store space).map .listed, store)
  | .scan space => ((units store space).map .scanned, store)

theorem write_of_answered {order : List String → Prop} {u : Units Bytes} {store : σ} {space key : String} {bs : Bytes}
    (answered : Answered order u (.set space key bs) (serve store (.set space key bs)).1) :
    ∃ store', write store space key bs = (.ok (), store') := by
  rcases written : write store space key bs with ⟨r, store'⟩
  simp only [serve, written, Prod.map_fst] at answered
  cases r with
  | error e => cases answered
  | ok => exact ⟨store', rfl⟩

/-- Over a run of calls, an engine gives what a map gives, and no call changes what is given for another namespace. -/
inductive Simulates (order : List String → Prop) (allowed : UnitCall → Prop) : σ → Units Bytes → List UnitCall → Prop
  | nil {store : σ} {u : Units Bytes} : Simulates order allowed store u []
  | cons {store : σ} {u : Units Bytes} {c : UnitCall} {cs : List UnitCall}
      (answered : Answered order u c (serve store c).1)
      (apart : ∀ other, allowed other → other.space ≠ c.space →
        (serve (serve store c).2 other).1 = (serve store other).1)
      (others : Simulates order allowed (serve store c).2 (c.apply u) cs) : Simulates order allowed store u (c :: cs)

theorem Simulates.mono {order order' : List String → Prop} {allowed : UnitCall → Prop} {store : σ} {u : Units Bytes}
    {cs : List UnitCall} (simulates : Simulates order allowed store u cs) (weaker : ∀ keys, order keys → order' keys) :
    Simulates order' allowed store u cs := by
  induction simulates with
  | nil => exact .nil
  | cons answered apart _ ih => exact .cons (answered.mono weaker) apart ih

variable [LawfulStorage σ]

/-- An engine that carries out the calls allowed, and can read and list all of its units. -/
structure Serves (allowed : UnitCall → Prop) (store : σ) : Prop where
  write : ∀ space key bs, allowed (.set space key bs) → (Storage.write store space key bs).1 = .ok ()
  read : ∀ space key, allowed (.get space key) → Storage.read store space key = .ok (LawfulStorage.units store space key)
  stored : ∀ space key bs, LawfulStorage.units store space key = some bs → Storage.read store space key = .ok (some bs)
  keys : ∀ space, allowed (.keys space) ∨ allowed (.scan space) → ∃ keys, Storage.keys store space = .ok keys ∧
    Text.Ascending keys ∧ ∀ key, key ∈ keys ↔ ∃ bs, LawfulStorage.units store space key = some bs

variable {allowed : UnitCall → Prop} {store : σ}

theorem Serves.units_eq_ok (serves : Serves allowed store) {space : String} {keys : List String}
    (listed : Storage.keys store space = .ok keys)
    (complete : ∀ key, key ∈ keys ↔ ∃ bs, LawfulStorage.units store space key = some bs) :
    ∃ units, Storage.units store space = .ok units ∧
      List.Forall₂ (fun key unit => ∃ bs, LawfulStorage.units store space key = some bs ∧ unit = (key, .ok bs)) keys
        units := by
  refine ⟨keys.filterMap (unit? store space), by rw [Storage.units, listed]; rfl, ?_⟩
  have each : ∀ key ∈ keys, ∃ bs, LawfulStorage.units store space key = some bs := fun key => (complete key).mp
  clear listed complete
  induction keys with
  | nil => exact .nil
  | cons key keys ih =>
    obtain ⟨bs, found⟩ := each key (by simp)
    have unit : unit? store space key = some (key, .ok bs) := by rw [unit?, serves.stored space key bs found]
    rw [List.filterMap_cons_some unit]
    exact .cons ⟨bs, found, rfl⟩ (ih fun key member => each key (by simp [member]))

theorem Serves.answered (serves : Serves allowed store) {c : UnitCall} (permitted : allowed c) :
    Answered Text.Ascending (LawfulStorage.units store) c (serve store c).1 := by
  cases c with
  | set space key bs =>
    have written := serves.write space key bs permitted
    simp only [serve, Prod.map_fst, written]
    exact .set
  | get space key =>
    simp only [serve, serves.read space key permitted]
    exact .get
  | keys space =>
    obtain ⟨keys, listed, ascending, complete⟩ := serves.keys space (.inl permitted)
    simp only [serve, listed]
    exact .keys ⟨ascending.nodup, complete⟩ ascending
  | scan space =>
    obtain ⟨keys, listed, ascending, complete⟩ := serves.keys space (.inr permitted)
    obtain ⟨units, scanned, each⟩ := serves.units_eq_ok listed complete
    simp only [serve, scanned]
    exact .scan ⟨ascending.nodup, complete⟩ ascending each

theorem Serves.units_serve (serves : Serves allowed store) {c : UnitCall} (permitted : allowed c) :
    LawfulStorage.units (serve store c).2 = c.apply (LawfulStorage.units store) := by
  cases c with
  | set space key bs =>
    have written := serves.write space key bs permitted
    exact LawfulStorage.units_of_write (Prod.ext written rfl)
  | get | keys | scan => rfl

theorem simulates_of_serves (good : σ → Prop) (serves : ∀ store, good store → Serves allowed store)
    (kept : ∀ store c, good store → allowed c → good (serve store c).2) (start : good store) {cs : List UnitCall}
    (permitted : ∀ c ∈ cs, allowed c) : Simulates Text.Ascending allowed store (LawfulStorage.units store) cs := by
  induction cs generalizing store with
  | nil => exact .nil
  | cons c cs ih =>
    have first := permitted c (by simp)
    have now := serves store start
    have next := kept store c start first
    have units := now.units_serve first
    have others := ih next fun c member => permitted c (by simp [member])
    rw [units] at others
    refine .cons (now.answered first) (fun other ok apart => ?_) others
    have same : LawfulStorage.units (serve store c).2 other.space = LawfulStorage.units store other.space := by
      rw [units, UnitCall.apply_of_space_ne _ apart]
    exact ((serves _ next).answered ok).eq_of_space_eq (now.answered ok) same

end Storage

namespace Memory

theorem serves (m : Memory) : Storage.Serves UnitCall.Named m where
  write space key bs named := by
    have spaceName := (named space (by simp [UnitCall.names])).1
    have keyName := (named key (by simp [UnitCall.names])).1
    exact congrArg Prod.fst (write_eq_ok_iff.mpr ⟨spaceName, keyName, rfl⟩)
  read _ _ _ := rfl
  stored _ _ _ found := congrArg Except.ok found
  keys space _ := ⟨m.keys space, rfl, Text.ascending_iff.mpr (m.pairwise_keys space), fun _ => m.mem_keys_iff⟩

end Memory

end RowBase
