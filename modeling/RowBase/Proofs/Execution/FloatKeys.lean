import RowBase.Proofs.Binary64.ReadBack
import RowBase.Proofs.Execution.StoredRows

namespace RowBase

theorem Value.ofLiteral_float {literal : String} {x : Binary64} (read : Binary64.ofText? literal = some x) :
    ofLiteral .float literal = .ok (float x) := by
  simp only [ofLiteral, read, Option.map_some]

/-- An INSERT makes a row with this number as its primary key, and the row is the unit at this place. -/
def Sql.Insert.KeyedBy (i : Sql.Insert) (db : Database) (fresh : Identifier) (x : Binary64) (space key : String) : Prop :=
  ∃ t k row f, db.table? i.table = some t ∧ t.primaryKey? = some k ∧ i.row db fresh = .ok (key, row) ∧
    row.table = space ∧ row.field? k.column = some f ∧ f.value? = some (.float x)

theorem Sql.Insert.KeyedBy.key_eq {i : Sql.Insert} {db : Database} {fresh : Identifier} {x : Binary64}
    {space key : String} (keyed : i.KeyedBy db fresh x space key) : key = x.text := by
  obtain ⟨t, k, row, f, table, primary, made, -, found, value⟩ := keyed
  obtain ⟨t', coerced, fields, table', -, identifies, rfl⟩ := Sql.Insert.row_eq_ok_iff.mp made
  cases table.symm.trans table'
  have keys := identifies.keys t.name
  simp only [Table.Keys, primary] at keys
  obtain ⟨f', v, found', value', text⟩ := keys
  cases found.symm.trans found'
  cases value.symm.trans value'
  exact text.symm

/-- Each number but NaN is read back from its canonical text with all its bits, and NaN as a NaN. Rows of a table with
numbers as primary keys therefore share a unit only if the numbers have the same bits or both are NaN. -/
theorem float_text_reads_back :
    (∀ x : Binary64, x.isNaN = false → Value.ofLiteral .float (Value.float x).text = .ok (.float x)) ∧
    (∀ x : Binary64, x.isNaN = true →
      ∃ y, Value.ofLiteral .float (Value.float x).text = .ok (.float y) ∧ y.isNaN = true) ∧
    (∀ x y : Binary64, x.isNaN = false → y.isNaN = false → (Value.float x).text = (Value.float y).text → x = y) ∧
    ∀ (db : Database) (i j : Sql.Insert) (fresh fresh' : Identifier) (x y : Binary64) (space key key' : String),
      i.KeyedBy db fresh x space key → j.KeyedBy db fresh' y space key' →
        (key = key' ↔ x = y ∨ x.isNaN = true ∧ y.isNaN = true) := by
  refine ⟨fun x number => ?_, fun x nan => ?_, fun x y number number' same => ?_, ?_⟩
  · exact Value.ofLiteral_float (Binary64.ofText?_text number)
  · exact ⟨_, Value.ofLiteral_float (Binary64.ofText?_text_of_isNaN nan), Binary64.isNaN_nan⟩
  · rcases Binary64.text_eq_text_iff.mp same with same | ⟨nan, -⟩
    · exact same
    · rw [number] at nan
      cases nan
  · intro db i j fresh fresh' x y space key key' keyed keyed'
    rw [keyed.key_eq, keyed'.key_eq]
    exact Binary64.text_eq_text_iff

def gauge : Table :=
  ⟨"gauge", [⟨"level", .float⟩], [⟨"key", "level", true, true, true, none, none⟩]⟩

def gauges : Database :=
  { Database.blank "gauges" with tables := [gauge] }

def insertLevel (literal : String) : Sql.Insert :=
  ⟨"gauge", .all, [literal]⟩

theorem keyedBy_insertLevel {literal : String} {x : Binary64}
    (made : (insertLevel literal).row gauges .zero =
      .ok (literal, .ofFields "gauge" [.ofValue "level" .float (.float x)])) :
    (insertLevel literal).KeyedBy gauges .zero x "gauge" literal :=
  ⟨gauge, _, _, _, rfl, rfl, made, rfl, rfl, rfl⟩

theorem float_text_reads_back_zeros :
    Value.ofLiteral .float "0.1" = .ok (.float ⟨0x3FB999999999999A⟩) ∧
    (∃ y, Value.ofLiteral .float "NaN" = .ok (.float y) ∧ y.isNaN = true) ∧
    (insertLevel "0").KeyedBy gauges .zero ⟨0⟩ "gauge" "0" ∧
    (insertLevel "-0").KeyedBy gauges .zero ⟨0x8000000000000000⟩ "gauge" "-0" ∧ "0" ≠ "-0" := by
  obtain ⟨numbers, nans, distinct, keys⟩ := float_text_reads_back
  have tenth : (Value.float ⟨0x3FB999999999999A⟩).text = "0.1" := by decide +kernel
  have read := numbers ⟨0x3FB999999999999A⟩ (by decide)
  rw [tenth] at read
  have nan := nans ⟨0xFFF8000000000001⟩ (by decide)
  have plus : (insertLevel "0").KeyedBy gauges .zero ⟨0⟩ "gauge" "0" := keyedBy_insertLevel (by decide +kernel)
  have minus : (insertLevel "-0").KeyedBy gauges .zero ⟨0x8000000000000000⟩ "gauge" "-0" :=
    keyedBy_insertLevel (by decide +kernel)
  refine ⟨read, nan, plus, minus, fun same => ?_⟩
  rcases (keys gauges _ _ _ _ _ _ _ _ _ plus minus).mp same with equal | ⟨none, -⟩
  · cases equal
  · cases none

end RowBase
