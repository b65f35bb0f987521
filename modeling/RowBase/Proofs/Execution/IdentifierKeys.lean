import RowBase.Proofs.Execution.RefusedNames
import RowBase.Proofs.Value.IdentifierLayout

namespace RowBase

theorem Identifier.HasLayout.isUnitName {s : String} (layout : HasLayout s.toList) : isUnitName s = true := by
  have longer {short : String} (other : short.toList.length ≠ 36) : s ≠ short := by
    rintro rfl
    exact other layout.length
  have each : ('-' :: Text.hexDigits).all (fun c => c != '/' && c != '\\' && c.toNat != 0) = true := by decide
  have chars : s.toList.all (fun c => c != '/' && c != '\\' && c.toNat != 0) = true :=
    List.all_eq_true.mpr fun c member => List.all_eq_true.mp each c (List.mem_cons.mpr (layout.hyphen_or_digit member))
  have notEmpty : s ≠ "" := longer (by decide)
  have notDot : s ≠ "." := longer (by decide)
  have notUp : s ≠ ".." := longer (by decide)
  rw [RowBase.isUnitName, chars]
  simp [notEmpty, notDot, notUp]

theorem RowStore.runInsert_ne_invalidKey {σ : Type} [Storage σ] {checked : UnitCall → Prop}
    (checks : Storage.ChecksNames σ checked) (sets : ∀ c : UnitCall, c.IsSet → checked c) {identity : String}
    (unit : isUnitName identity = true) (s : RowStore) (store : σ) (fresh : Identifier) (i : Sql.Insert) :
    (s.runInsert store fresh i).result ≠ .error (.invalidKey identity) := by
  intro refused
  obtain ⟨_, _, -, -, unfit⟩ := (runInsert_eq_invalidKey_iff checks sets).mp refused
  rw [UnitCall.isUnitName_of_unfit? unfit] at unit
  cases unit

def Sql.Insert.LeavesKeyOut (i : Sql.Insert) (db : Database) : Prop :=
  ∀ t k, db.table? i.table = some t → t.primaryKey? = some k → k.column ∉ i.columns.resolve t

theorem Sql.Insert.LeavesKeyOut.eq_text {i : Sql.Insert} {db : Database} (out : i.LeavesKeyOut db) {fresh : Identifier}
    {identity : String} {row : Row} (made : i.row db fresh = .ok (identity, row)) : identity = fresh.text := by
  obtain ⟨t, fields, _, table, coerced, identifies, -⟩ := Sql.Insert.row_eq_ok_iff.mp made
  cases identifies with
  | unkeyed | synthesized => rfl
  | @supplied k f key found =>
    have named : f.name = k.column := by simpa using List.find?_some found
    have given : k.column ∈ i.columns.resolve t := by
      rw [← Table.names_of_coerce coerced, ← named]
      exact List.mem_map_of_mem (List.mem_of_find?_eq_some found)
    exact absurd given (out t k table key)

/-- The texts of the layout are those of identifiers, each of one: a text is read exactly if it has the layout, and as
the identifier that it is written for. All of them are names of units, so an INSERT that makes its key up has the text
of the fresh identifier as its key, and neither engine refuses it. -/
theorem identifiers_are_texts_of_layout :
    (∀ s, (∃ id, Identifier.ofText? s = some id) ↔ Identifier.HasLayout s.toList) ∧
    (∀ s c, c ∈ s.toList → 128 ≤ c.toNat → Identifier.ofText? s = none) ∧
    (∀ s id, Identifier.ofText? s = some id → id.text = s) ∧
    (∀ id : Identifier, Identifier.HasLayout id.text.toList ∧ Identifier.ofText? id.text = some id) ∧
    (∀ s, Identifier.HasLayout s.toList → checkName s = .ok ()) ∧
    ∀ (s : RowStore) (i : Sql.Insert) (fresh : Identifier) (identity : String) (row : Row),
      i.LeavesKeyOut s.schema → i.row s.schema fresh = .ok (identity, row) →
        identity = fresh.text ∧
        (∀ m : Memory, (s.runInsert m fresh i).result ≠ .error (.invalidKey identity)) ∧
        ∀ d : Disk, (s.runInsert d fresh i).result ≠ .error (.invalidKey identity) := by
  refine ⟨fun _ => Identifier.hasLayout_iff.symm, ?_, fun _ _ => Identifier.ofText?_eq_some_iff.mp,
    fun id => ⟨id.hasLayout_text, id.ofText?_text⟩, fun _ layout => checkName_eq_ok_iff.mpr layout.isUnitName, ?_⟩
  · intro s c member wide
    have ascii : ('-' :: Text.hexDigits).all (·.toNat < 128) = true := by decide
    cases read : Identifier.ofText? s with
    | none => rfl
    | some id =>
      have layout := Identifier.hasLayout_iff.mpr ⟨id, read⟩
      have small := List.all_eq_true.mp ascii c (List.mem_cons.mpr (layout.hyphen_or_digit member))
      rw [decide_eq_true_eq] at small
      omega
  · intro s i fresh identity row out made
    obtain rfl := out.eq_text made
    have unit := fresh.hasLayout_text.isUnitName
    exact ⟨rfl, fun m => RowStore.runInsert_ne_invalidKey Memory.checksNames (fun _ set => set) unit s m fresh i,
      fun d => RowStore.runInsert_ne_invalidKey Disk.checksNames (fun _ _ => trivial) unit s d fresh i⟩

def notes : Database :=
  { Database.blank "notes" with
    tables := [⟨"notes", [⟨"id", .uuid⟩, ⟨"text", .string⟩], [⟨"key", "id", true, true, true, none, none⟩]⟩] }

def insertNote : Sql.Insert :=
  ⟨"notes", .named ["text"], ["hello"]⟩

def noteKey : Identifier :=
  ⟨[0x6b, 0xa7, 0xb8, 0x10, 0x9d, 0xad, 0x11, 0xd1, 0x80, 0xb4, 0x00, 0xc0, 0x4f, 0xd4, 0x30, 0xc8], rfl⟩

theorem identifiers_are_texts_of_layout_notes :
    Identifier.HasLayout noteKey.text.toList ∧ noteKey.text = "6ba7b810-9dad-11d1-80b4-00c04fd430c8" ∧
    Text.byteLength "6ba7b810-9dad-11d1-80b4-00c04fd430é".toList = 36 ∧
    Identifier.ofText? "6ba7b810-9dad-11d1-80b4-00c04fd430é" = none ∧ checkName noteKey.text = .ok () ∧
    insertNote.LeavesKeyOut notes ∧
    (∀ m : Memory, ((RowStore.ofSchema notes).runInsert m noteKey insertNote).result ≠
      .error (.invalidKey noteKey.text)) ∧
    ∀ d : Disk, ((RowStore.ofSchema notes).runInsert d noteKey insertNote).result ≠
      .error (.invalidKey noteKey.text) := by
  obtain ⟨layout, ascii, written, -, names, keys⟩ := identifiers_are_texts_of_layout
  have read : Identifier.ofText? "6ba7b810-9dad-11d1-80b4-00c04fd430c8" = some noteKey := by decide +kernel
  have text := written _ _ read
  have formed := (layout _).mp ⟨noteKey, read⟩
  rw [← text] at formed
  have out : insertNote.LeavesKeyOut notes := by
    intro t k table key
    cases table
    cases key
    decide
  have made : insertNote.row notes noteKey = .ok (noteKey.text, .ofFields "notes"
      [.ofValue "text" .string (.string "hello"), .ofValue "id" .uuid (.uuid noteKey)]) := by decide +kernel
  obtain ⟨-, memory, disk⟩ := keys (RowStore.ofSchema notes) _ _ _ _ out made
  have wide := ascii "6ba7b810-9dad-11d1-80b4-00c04fd430é" 'é' (by decide) (by decide)
  exact ⟨formed, text, by decide, wide, names _ formed, out, memory, disk⟩

end RowBase
