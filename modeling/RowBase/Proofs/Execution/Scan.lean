import Mathlib.Data.List.Forall2
import RowBase.RowStore
import RowBase.Storage.Impaired
import RowBase.Storage.Memory

namespace RowBase

/-- The first field of each name, in the order of the names. -/
def Projects (fields : List Field) (names : List String) (row : List Field) : Prop :=
  List.Forall₂ (fun n f => fields.find? (·.name == n) = some f) names row

section Listing

variable {α β : Type} {f : α → Option β}

theorem forall₂_some_iff {as : List α} {bs : List β} :
    List.Forall₂ (fun a b => f a = some b) as bs ↔ (∀ a ∈ as, (f a).isSome) ∧ bs = as.filterMap f := by
  induction as generalizing bs with
  | nil => simp
  | cons a as ih =>
    rw [List.forall₂_cons_left_iff]
    simp only [ih]
    cases image : f a with
    | none => simp [image]
    | some b => simp [image]

theorem forall₂_filterMap (f : α → Option β) (as : List α) :
    List.Forall₂ (fun a b => f a = some b) (as.filter fun a => (f a).isSome) (as.filterMap f) := by
  rw [forall₂_some_iff, List.filterMap_filter]
  refine ⟨fun a member => (List.mem_filter.mp member).2, ?_⟩
  congr 1
  funext a
  cases f a <;> rfl

end Listing

theorem projects_iff {fields : List Field} {names : List String} {row : List Field} :
    Projects fields names row ↔ (∀ n ∈ names, ∃ f ∈ fields, f.name = n) ∧
      row = names.filterMap fun n => fields.find? (·.name == n) := by
  rw [Projects, forall₂_some_iff]
  simp [List.find?_isSome]

theorem okPart_eq_some_iff {ε α : Type} {e : Except ε α} {a : α} : okPart e = some a ↔ e = .ok a := by
  cases e <;> simp [okPart]

theorem length_project_eq_iff {r : Row} {columns : List String} :
    (r.project columns).length = columns.length ↔ ∀ n ∈ columns, ∃ f ∈ r.fields, f.name = n := by
  rw [Row.project, List.filterMap_length_eq_length]
  simp [Row.field?, List.find?_isSome]

def Warning.Tells (w : Warning) (text key : String) : Prop :=
  w.message = text ∧ w.key? = some key

theorem Warning.Tells.unique {w w' : Warning} {text key : String} (tells : w.Tells text key)
    (tells' : w'.Tells text key) : w = w' := by
  obtain ⟨message, carried⟩ := tells
  obtain ⟨message', carried'⟩ := tells'
  subst message
  cases w <;> cases w' <;> simp_all [Warning.message, Warning.key?]

/-- What a listed key comes to, by what is read under it. -/
inductive Accounts (columns : List String) (key : String) :
    Except Error (Option Bytes) → Option (Except Warning Row) → Prop
  | unread {e : Error} {w : Warning} (tells : w.Tells "read row failed" key) :
      Accounts columns key (.error e) (some (.error w))
  | gone : Accounts columns key (.ok none) none
  | undecoded {bs : Bytes} {f : DecodeFault} {w : Warning} (refused : Row.decode bs = .error f)
      (tells : w.Tells "decode row failed" key) : Accounts columns key (.ok (some bs)) (some (.error w))
  | incomplete {bs : Bytes} {r : Row} {c : String} {w : Warning} (decoded : Row.decode bs = .ok r)
      (asked : c ∈ columns) (lacks : ∀ f ∈ r.fields, f.name ≠ c)
      (tells : w.Tells "invalid result column length" key) : Accounts columns key (.ok (some bs)) (some (.error w))
  | row {bs : Bytes} {r : Row} {fields : List Field} (decoded : Row.decode bs = .ok r)
      (projects : Projects r.fields columns fields) : Accounts columns key (.ok (some bs)) (some (.ok { r with fields }))

theorem accounts_rowOfUnit (columns : List String) (key : String) (bs : Bytes) :
    Accounts columns key (.ok (some bs)) (some (rowOfUnit columns (key, .ok bs))) := by
  rw [rowOfUnit]
  cases decoded : Row.decode bs with
  | error f => exact .undecoded decoded ⟨rfl, rfl⟩
  | ok r =>
    by_cases full : (r.project columns).length = columns.length
    · simp only [if_pos full]
      exact .row decoded (projects_iff.mpr ⟨length_project_eq_iff.mp full, rfl⟩)
    · simp only [if_neg full]
      rw [length_project_eq_iff] at full
      simp only [not_forall, not_exists, not_and] at full
      obtain ⟨c, asked, lacks⟩ := full
      exact .incomplete decoded asked lacks ⟨rfl, rfl⟩

theorem Accounts.unique {columns : List String} {key : String} {read : Except Error (Option Bytes)}
    {account account' : Option (Except Warning Row)} (accounts : Accounts columns key read account)
    (accounts' : Accounts columns key read account') : account = account' := by
  cases accounts with
  | unread tells =>
    cases accounts' with
    | unread tells' => rw [tells.unique tells']
  | gone =>
    cases accounts' with
    | gone => rfl
  | undecoded refused tells =>
    cases accounts' with
    | undecoded _ tells' => rw [tells.unique tells']
    | incomplete decoded' | row decoded' => simp [refused] at decoded'
  | incomplete decoded asked lacks tells =>
    cases accounts' with
    | undecoded refused' => simp [decoded] at refused'
    | incomplete _ _ _ tells' => rw [tells.unique tells']
    | row decoded' projects =>
      rw [decoded] at decoded'
      cases decoded'
      obtain ⟨f, member, named⟩ := (projects_iff.mp projects).1 _ asked
      exact absurd named (lacks f member)
  | row decoded projects =>
    cases accounts' with
    | undecoded refused' => simp [decoded] at refused'
    | incomplete decoded' asked lacks =>
      rw [decoded] at decoded'
      cases decoded'
      obtain ⟨f, member, named⟩ := (projects_iff.mp projects).1 _ asked
      exact absurd named (lacks f member)
    | row decoded' projects' =>
      rw [decoded] at decoded'
      cases decoded'
      rw [(projects_iff.mp projects).2, (projects_iff.mp projects').2]

variable {σ : Type} [Storage σ]

def account (store : σ) (table : String) (columns : List String) (key : String) : Option (Except Warning Row) :=
  (Storage.unit? store table key).map (rowOfUnit columns)

theorem accounts_account (store : σ) (table : String) (columns : List String) (key : String) :
    Accounts columns key (Storage.read store table key) (account store table columns key) := by
  rw [account, Storage.unit?]
  cases Storage.read store table key with
  | error e => exact .unread ⟨rfl, rfl⟩
  | ok unit =>
    cases unit with
    | none => exact .gone
    | some bs => exact accounts_rowOfUnit columns key bs

theorem scanTable_of_keys {store : σ} {table : String} {keys : List String}
    (listed : Storage.keys store table = .ok keys) (columns : List String) (filters : List Filter) :
    scanTable store table columns filters =
      (.ok ((keys.map (account store table columns)).filterMap (·.bind okPart)),
        (if filters = [] then [] else [.filtersIgnored]) ++
          (keys.map (account store table columns)).filterMap (·.bind errorPart)) := by
  have part {α : Type} (f : Except Warning Row → Option α) :
      (((keys.filterMap (Storage.unit? store table)).map (rowOfUnit columns)).filterMap f) =
        (keys.map (account store table columns)).filterMap (·.bind f) := by
    rw [List.filterMap_map, List.filterMap_filterMap, List.filterMap_map]
    congr 1
    funext key
    rw [Function.comp_apply, account, Option.bind_map]
  simp only [scanTable, Storage.units, listed, Except.map, part, List.isEmpty_iff]

theorem scanTable_of_refused {store : σ} {table : String} {e : Error} (refused : Storage.keys store table = .error e)
    (columns : List String) (filters : List Filter) :
    (scanTable store table columns filters).1 = .error e := by
  simp only [scanTable, Storage.units, refused, Except.map]

theorem scanTable_of_no_row {store : σ} {table : String} {columns keys : List String}
    (listed : Storage.keys store table = .ok keys)
    (noRow : ∀ key ∈ keys, ∀ bs, Storage.read store table key = .ok (some bs) →
      ∀ row, rowOfUnit columns (key, .ok bs) ≠ .ok row) (filters : List Filter) :
    (scanTable store table columns filters).1 = .ok [] := by
  rw [scanTable_of_keys listed]
  refine congrArg Except.ok (List.filterMap_eq_nil_iff.mpr fun part member => ?_)
  obtain ⟨key, inside, rfl⟩ := List.mem_map.mp member
  rw [account, Storage.unit?]
  cases found : Storage.read store table key with
  | error e => rfl
  | ok unit =>
    cases unit with
    | none => rfl
    | some bs =>
      cases made : rowOfUnit columns (key, .ok bs) with
      | error w => simp [made, okPart]
      | ok row => exact absurd made (noRow key inside bs found row)

/-- A scan fails only where the listing does. Every listed key comes to exactly one thing, in listing order, and
filters never change the rows. -/
theorem scan_accounts_for_every_key (store : σ) (table : String) (columns : List String) (filters : List Filter) :
    (∀ e, (scanTable store table columns filters).1 = .error e ↔ Storage.keys store table = .error e) ∧
    (∀ keys, Storage.keys store table = .ok keys → ∃! accounts : List (Option (Except Warning Row)),
      List.Forall₂ (fun key account => Accounts columns key (Storage.read store table key) account) keys accounts ∧
        scanTable store table columns filters = (.ok (accounts.filterMap (·.bind okPart)),
          (if filters = [] then [] else [.filtersIgnored]) ++ accounts.filterMap (·.bind errorPart))) ∧
    ∀ filters', (scanTable store table columns filters').1 = (scanTable store table columns filters).1 := by
  refine ⟨fun e => ?_, fun keys listed => ?_, fun filters' => ?_⟩
  · cases listed : Storage.keys store table with
    | error e' => simp [scanTable_of_refused listed]
    | ok keys => simp [scanTable_of_keys listed]
  · have each : List.Forall₂ (fun key account => Accounts columns key (Storage.read store table key) account) keys
        (keys.map (account store table columns)) := by
      rw [List.forall₂_map_right_iff, List.forall₂_same]
      exact fun key _ => accounts_account store table columns key
    -- No other list does: each key has one account only, so the two agree at every key.
    have unique : Relator.RightUnique fun key account => Accounts columns key (Storage.read store table key) account :=
      fun _ _ _ first second => first.unique second
    refine ⟨_, ⟨each, scanTable_of_keys listed columns filters⟩, ?_⟩
    intro accounts others
    exact List.right_unique_forall₂' unique others.1 each
  · cases listed : Storage.keys store table with
    | error e => rw [scanTable_of_refused listed, scanTable_of_refused listed]
    | ok keys => rw [scanTable_of_keys listed, scanTable_of_keys listed]

/-- One good row, then bytes that are no row, a unit that cannot be read, a row that lacks the column, and a key
whose unit is gone. -/
def spoiled : Impaired Memory where
  store := (((Memory.empty.insert "t" "1" (Row.encode ⟨"t", [.ofValue "n" .int (.int 7)], false⟩)).insert "t" "2"
    [1]).insert "t" "3" [1]).insert "t" "4" (Row.encode ⟨"t", [], false⟩)
  broken := ["3"]
  ghosts := SortedMap.empty.insert "5" ()

theorem scan_accounts_for_every_key_spoiled :
    Storage.keys spoiled "t" = .ok ["1", "2", "3", "4", "5"] ∧
    ∃! accounts : List (Option (Except Warning Row)),
      List.Forall₂ (fun key account => Accounts ["n"] key (Storage.read spoiled "t" key) account)
        ["1", "2", "3", "4", "5"] accounts ∧
      scanTable spoiled "t" ["n"] [] = (.ok (accounts.filterMap (·.bind okPart)),
        (if ([] : List Filter) = [] then [] else [.filtersIgnored]) ++ accounts.filterMap (·.bind errorPart)) := by
  have listed : Storage.keys spoiled "t" = .ok ["1", "2", "3", "4", "5"] := by decide
  exact ⟨listed, (scan_accounts_for_every_key spoiled "t" ["n"] []).2.1 _ listed⟩

example : scanTable spoiled "t" ["n"] [] = (.ok [⟨"t", [.ofValue "n" .int (.int 7)], false⟩],
    [.decodeFailed "2", .readFailed "3", .missingColumns "4"]) := by rfl

end RowBase
