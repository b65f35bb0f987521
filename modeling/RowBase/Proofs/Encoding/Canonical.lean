import RowBase.Config
import RowBase.Proofs.Encoding.RoundTrip

namespace RowBase

/-- Whenever the decoder gives the value, it has read these bytes and left the others. -/
def Determines {α : Type} (d : Decoder α) (bs : Bytes) (a : α) : Prop :=
  ∀ input rest, d input = .ok (a, rest) → input = bs ++ rest

namespace Encoding

theorem littleEndian_ofLittleEndian (bs : Bytes) : littleEndian bs.length (ofLittleEndian bs) = bs := by
  induction bs with
  | nil => rfl
  | cons b bs ih =>
    have bound := b.toNat_lt
    have quotient : (b.toNat + 256 * ofLittleEndian bs) / 256 = ofLittleEndian bs := by omega
    have digit : UInt8.ofNat (b.toNat + 256 * ofLittleEndian bs) = b := by
      rw [← UInt8.toNat_inj, UInt8.toNat_ofNat']
      omega
    rw [List.length_cons, ofLittleEndian, littleEndian, quotient, ih, digit]

theorem ofLittleEndian_lt (bs : Bytes) : ofLittleEndian bs < 256 ^ bs.length := by
  induction bs with
  | nil => decide
  | cons b bs ih =>
    have bound := b.toNat_lt
    rw [List.length_cons, Nat.pow_succ, ofLittleEndian]
    omega

theorem take_eq_ok {n : Nat} {short : DecodeFault} {input bs rest : Bytes}
    (read : Decoder.take n short input = .ok (bs, rest)) : bs.length = n ∧ input = bs ++ rest := by
  unfold Decoder.take at read
  split at read
  · rename_i full
    cases read
    exact ⟨full, (List.take_append_drop n input).symm⟩
  · cases read

theorem littleEndian_of_take {n : Nat} {short : DecodeFault} {input bs rest : Bytes}
    (read : Decoder.take n short input = .ok (bs, rest)) :
    ofLittleEndian bs < 256 ^ n ∧ input = littleEndian n (ofLittleEndian bs) ++ rest := by
  obtain ⟨rfl, rfl⟩ := take_eq_ok read
  rw [littleEndian_ofLittleEndian]
  exact ⟨ofLittleEndian_lt bs, rfl⟩

theorem determines_byte (b : UInt8) : Determines Decoder.byte [b] b := by
  intro input rest read
  cases input with
  | nil => cases read
  | cons =>
    cases read
    rfl

theorem determines_word32 (n : UInt32) : Determines Decoder.word32 (word32 n) n := by
  intro input rest read
  simp only [Decoder.word32, StateT.bind_eq_ok_iff, StateT.pure_eq_ok_iff] at read
  obtain ⟨bs, _, taken, rfl, rfl⟩ := read
  obtain ⟨small, rfl⟩ := littleEndian_of_take taken
  rw [word32, UInt32.toNat_ofNat_of_lt' small]

theorem determines_word64 (n : UInt64) : Determines Decoder.word64 (word64 n) n := by
  intro input rest read
  simp only [Decoder.word64, StateT.bind_eq_ok_iff, StateT.pure_eq_ok_iff] at read
  obtain ⟨bs, _, taken, rfl, rfl⟩ := read
  obtain ⟨small, rfl⟩ := littleEndian_of_take taken
  rw [word64, UInt64.toNat_ofNat_of_lt' small]

theorem determines_bool (b : Bool) : Determines Decoder.bool (bool b) b := by
  intro input rest read
  simp only [Decoder.bool, StateT.bind_eq_ok_iff] at read
  obtain ⟨n, mid, first, read⟩ := read
  rw [determines_byte n input mid first]
  split at read
  · rename_i zero
    cases read
    rw [zero]
    rfl
  · split at read
    · rename_i one
      cases read
      rw [one]
      rfl
    · cases read

theorem determines_chunk (bs : Bytes) : Determines Decoder.chunk (chunk bs) bs := by
  intro input rest read
  simp only [Decoder.chunk, StateT.bind_eq_ok_iff] at read
  obtain ⟨n, mid, count, taken⟩ := read
  obtain ⟨full, rfl⟩ := take_eq_ok taken
  rw [determines_word64 n input _ count, chunk, full, UInt64.ofNat_toNat, List.append_assoc]

theorem determines_text (s : String) : Determines Decoder.text (text s) s := by
  intro input rest read
  simp only [Decoder.text, StateT.bind_eq_ok_iff] at read
  obtain ⟨bs, mid, chunked, read⟩ := read
  cases valid : Text.ofUtf8? bs with
  | none =>
    rw [valid] at read
    cases read
  | some t =>
    rw [valid] at read
    cases read
    rw [determines_chunk bs input _ chunked, text, Text.utf8_of_ofUtf8? valid]

theorem determines_option {α : Type} {item : Decoder α} {encode : α → Bytes} {o : Option α}
    (each : ∀ a ∈ o, Determines item (encode a) a) : Determines (Decoder.option item) (option encode o) o := by
  intro input rest read
  simp only [Decoder.option, StateT.bind_eq_ok_iff] at read
  obtain ⟨n, mid, first, read⟩ := read
  rw [determines_byte n input mid first]
  split at read
  · rename_i zero
    cases read
    rw [zero]
    rfl
  · split at read
    · rename_i one
      simp only [StateT.bind_eq_ok_iff, StateT.pure_eq_ok_iff] at read
      obtain ⟨a, _, second, rfl, rfl⟩ := read
      rw [one, each a rfl mid _ second]
      rfl
    · cases read

theorem determines_times {α : Type} {item : Decoder α} {encode : α → Bytes} {as : List α}
    (each : ∀ a ∈ as, Determines item (encode a) a) {n : Nat} {input rest : Bytes}
    (read : Decoder.times item n input = .ok (as, rest)) : as.length = n ∧ input = as.flatMap encode ++ rest := by
  induction n generalizing as input with
  | zero =>
    rw [Decoder.times, StateT.pure_eq_ok_iff] at read
    obtain ⟨rfl, rfl⟩ := read
    exact ⟨rfl, rfl⟩
  | succ n ih =>
    simp only [Decoder.times, StateT.bind_eq_ok_iff, StateT.pure_eq_ok_iff] at read
    obtain ⟨a, mid, first, others, _, second, rfl, rfl⟩ := read
    obtain ⟨length, rfl⟩ := ih (fun b member => each b (by simp [member])) second
    rw [each a (by simp) input _ first, List.flatMap_cons, List.append_assoc]
    exact ⟨by rw [List.length_cons, length], rfl⟩

theorem determines_list {α : Type} {item : Decoder α} {encode : α → Bytes} {as : List α}
    (each : ∀ a ∈ as, Determines item (encode a) a) : Determines (Decoder.list item) (list encode as) as := by
  intro input rest read
  simp only [Decoder.list, StateT.bind_eq_ok_iff] at read
  obtain ⟨n, mid, count, items⟩ := read
  obtain ⟨length, rfl⟩ := determines_times each items
  rw [determines_word64 n input _ count, list, length, UInt64.ofNat_toNat, List.append_assoc]

end Encoding

open Encoding

theorem DataType.determines (t : DataType) : Determines DataType.decoder t.encode t := by
  intro input rest read
  simp only [DataType.decoder, StateT.bind_eq_ok_iff] at read
  obtain ⟨n, mid, first, read⟩ := read
  cases known : ofOrdinal? n with
  | none =>
    rw [known] at read
    cases read
  | some t =>
    rw [known] at read
    cases read
    rw [determines_byte n input _ first, DataType.encode, byte, ordinal_of_ofOrdinal? known]

theorem Identifier.determines (id : Identifier) : Determines Identifier.decoder id.encode id := by
  intro input rest read
  unfold Identifier.decoder at read
  split at read
  · cases read
    exact (List.take_append_drop 16 input).symm
  · cases read

theorem Value.determines {v : Value} (timeless : v.type ≠ .time) : Determines Value.decoder v.encode v := by
  intro input rest read
  simp only [Value.decoder, StateT.bind_eq_ok_iff] at read
  obtain ⟨n, mid, tag, read⟩ := read
  rw [determines_word32 n input mid tag]
  have tagged {k : Nat} {bs : Bytes} (same : n.toNat = k) (body : mid = bs ++ rest) :
      word32 n ++ mid = (word32 (.ofNat k) ++ bs) ++ rest := by
    rw [← same, UInt32.ofNat_toNat, body, List.append_assoc]
  -- By the index of the kind. Only times are read from bytes that they do not determine.
  generalize n.toNat = k at read tagged
  match k, read with
  | 0, read =>
    obtain ⟨b, body, rfl⟩ := StateT.bind_pure_eq_ok_iff.mp read
    exact tagged rfl (determines_bool b mid rest body)
  | 1, read =>
    obtain ⟨i, body, rfl⟩ := StateT.bind_pure_eq_ok_iff.mp read
    exact tagged rfl (determines_word64 i mid rest body)
  | 2, read =>
    obtain ⟨bits, body, rfl⟩ := StateT.bind_pure_eq_ok_iff.mp read
    exact tagged rfl (determines_word64 bits mid rest body)
  | 3, read =>
    obtain ⟨s, body, rfl⟩ := StateT.bind_pure_eq_ok_iff.mp read
    exact tagged rfl (determines_text s mid rest body)
  | 4, read =>
    obtain ⟨t, -, rfl⟩ := StateT.bind_pure_eq_ok_iff.mp read
    exact absurd rfl timeless
  | 5, read =>
    obtain ⟨bs, body, rfl⟩ := StateT.bind_pure_eq_ok_iff.mp read
    exact tagged rfl (determines_chunk bs mid rest body)
  | 6, read =>
    obtain ⟨id, body, rfl⟩ := StateT.bind_pure_eq_ok_iff.mp read
    exact tagged rfl (id.determines mid rest body)
  | k + 7, read => cases read

theorem Field.determines {f : Field} (timeless : f.value.type ≠ .time) : Determines Field.decoder f.encode f := by
  intro input rest read
  simp only [Field.decoder, StateT.bind_eq_ok_iff, StateT.pure_eq_ok_iff] at read
  obtain ⟨name, _, readName, type, _, readType, isNull, _, readNull, value, _, readValue, rfl, rfl⟩ := read
  rw [determines_text name _ _ readName, type.determines _ _ readType, determines_bool isNull _ _ readNull,
    Value.determines timeless _ _ readValue, Field.encode]
  simp only [List.append_assoc]

def Row.IsTimeless (r : Row) : Prop :=
  ∀ f ∈ r.fields, f.value.type ≠ .time

theorem Row.determines {r : Row} (timeless : r.IsTimeless) : Determines Row.decoder r.encode r := by
  intro input rest read
  simp only [Row.decoder, StateT.bind_eq_ok_iff, StateT.pure_eq_ok_iff] at read
  obtain ⟨table, _, readTable, fields, _, readFields, deleted, _, readDeleted, rfl, rfl⟩ := read
  have each : ∀ f ∈ fields, Determines Field.decoder f.encode f := fun f member => Field.determines (timeless f member)
  rw [determines_text table _ _ readTable, determines_list each _ _ readFields, determines_bool deleted _ _ readDeleted,
    Row.encode]
  simp only [List.append_assoc]

theorem Column.determines (c : Column) : Determines Column.decoder c.encode c := by
  intro input rest read
  simp only [Column.decoder, StateT.bind_eq_ok_iff, StateT.pure_eq_ok_iff] at read
  obtain ⟨name, _, readName, type, _, readType, rfl, rfl⟩ := read
  rw [determines_text name _ _ readName, type.determines _ _ readType, Column.encode, List.append_assoc]

def DefaultValue.IsTimeless (d : DefaultValue) : Prop :=
  ∀ v, d = .literal v → v.type ≠ .time

theorem DefaultValue.determines {d : DefaultValue} (timeless : d.IsTimeless) :
    Determines DefaultValue.decoder d.encode d := by
  intro input rest read
  simp only [DefaultValue.decoder, StateT.bind_eq_ok_iff] at read
  obtain ⟨n, mid, tag, read⟩ := read
  rw [determines_word32 n input mid tag]
  have tagged {k : Nat} (same : n.toNat = k) : n = .ofNat k := by rw [← same, UInt32.ofNat_toNat]
  generalize n.toNat = k at read tagged
  match k, read with
  | 0, read =>
    obtain ⟨v, body, rfl⟩ := StateT.bind_pure_eq_ok_iff.mp read
    rw [tagged rfl, Value.determines (timeless v rfl) mid rest body, DefaultValue.encode, List.append_assoc]
    rfl
  | 1, read =>
    cases read
    rw [tagged rfl]
    rfl
  | 2, read =>
    cases read
    rw [tagged rfl]
    rfl
  | k + 3, read => cases read

theorem Constraint.determines_reference (r : String × String) :
    Determines Constraint.referenceDecoder (encodeReference r) r := by
  intro input rest read
  simp only [referenceDecoder, StateT.bind_eq_ok_iff, StateT.pure_eq_ok_iff] at read
  obtain ⟨table, _, readTable, column, _, readColumn, rfl, rfl⟩ := read
  rw [determines_text table _ _ readTable, determines_text column _ _ readColumn, encodeReference, List.append_assoc]

theorem Constraint.determines {k : Constraint} (timeless : ∀ d ∈ k.default, d.IsTimeless) :
    Determines Constraint.decoder k.encode k := by
  intro input rest read
  simp only [Constraint.decoder, StateT.bind_eq_ok_iff, StateT.pure_eq_ok_iff] at read
  obtain ⟨name, _, readName, column, _, readColumn, primaryKey, _, readPrimaryKey, unique, _, readUnique, notNull, _,
    readNotNull, references, _, readReferences, default, _, readDefault, rfl, rfl⟩ := read
  have target : ∀ r ∈ references, Determines referenceDecoder (encodeReference r) r := fun r _ => determines_reference r
  have given : ∀ d ∈ default, Determines DefaultValue.decoder d.encode d := fun d member =>
    DefaultValue.determines (timeless d member)
  rw [determines_text name _ _ readName, determines_text column _ _ readColumn,
    determines_bool primaryKey _ _ readPrimaryKey, determines_bool unique _ _ readUnique,
    determines_bool notNull _ _ readNotNull, determines_option target _ _ readReferences,
    determines_option given _ _ readDefault, Constraint.encode]
  simp only [List.append_assoc]

theorem Table.determines {t : Table} (timeless : ∀ k ∈ t.constraints, ∀ d ∈ k.default, d.IsTimeless) :
    Determines Table.decoder t.encode t := by
  intro input rest read
  simp only [Table.decoder, StateT.bind_eq_ok_iff, StateT.pure_eq_ok_iff] at read
  obtain ⟨name, _, readName, columns, _, readColumns, constraints, _, readConstraints, rfl, rfl⟩ := read
  have eachColumn : ∀ c ∈ columns, Determines Column.decoder c.encode c := fun c _ => c.determines
  have eachConstraint : ∀ k ∈ constraints, Determines Constraint.decoder k.encode k := fun k member =>
    Constraint.determines (timeless k member)
  rw [determines_text name _ _ readName, determines_list eachColumn _ _ readColumns,
    determines_list eachConstraint _ _ readConstraints, Table.encode]
  simp only [List.append_assoc]

def Database.IsTimeless (db : Database) : Prop :=
  ∀ t ∈ db.tables, ∀ k ∈ t.constraints, ∀ d ∈ k.default, d.IsTimeless

theorem Database.determines {db : Database} (timeless : db.IsTimeless) :
    Determines Database.decoder db.encode db := by
  intro input rest read
  simp only [Database.decoder, StateT.bind_eq_ok_iff, StateT.pure_eq_ok_iff] at read
  obtain ⟨name, _, readName, tables, _, readTables, major, _, readMajor, minor, _, readMinor, rfl, rfl⟩ := read
  have each : ∀ t ∈ tables, Determines Table.decoder t.encode t := fun t member =>
    Table.determines (timeless t member)
  rw [determines_text name _ _ readName, determines_list each _ _ readTables, determines_word32 major _ _ readMajor,
    determines_word32 minor _ _ readMinor, Database.encode]
  simp only [List.append_assoc]

theorem Config.determines (c : Config) : Determines Config.decoder c.encode c := by
  intro input rest read
  simp only [Config.decoder, StateT.bind_eq_ok_iff, StateT.pure_eq_ok_iff] at read
  obtain ⟨dataDir, _, readDataDir, schemaFile, _, readSchemaFile, maxRowSize, _, readSize, rfl, rfl⟩ := read
  rw [determines_text dataDir _ _ readDataDir, determines_text schemaFile _ _ readSchemaFile,
    determines_word64 maxRowSize _ _ readSize, Config.encode]
  simp only [List.append_assoc]

/-- Data without times has one stored form only. -/
theorem bytes_read_are_encoding :
    (∀ r : Row, r.IsTimeless → Determines Row.decoder r.encode r) ∧
    (∀ db : Database, db.IsTimeless → Determines Database.decoder db.encode db) ∧
    ∀ c : Config, Determines Config.decoder c.encode c :=
  ⟨fun _ => Row.determines, fun _ => Database.determines, Config.determines⟩

def floatRow : Row :=
  ⟨"rök", [⟨"x", .int, true, .float ⟨0xFFF8000000000001⟩⟩], false⟩

def storedFloat : Bytes :=
  [4, 0, 0, 0, 0, 0, 0, 0, 0x72, 0xC3, 0xB6, 0x6B, 1, 0, 0, 0, 0, 0, 0, 0, 1, 0, 0, 0, 0, 0, 0, 0, 0x78, 2, 1,
    2, 0, 0, 0, 1, 0, 0, 0, 0, 0, 0xF8, 0xFF, 0, 0xAA]

def numberedSchema : Database :=
  ⟨"d", [⟨"t", [⟨"n", .int⟩], [⟨"k", "n", true, false, true, none, some (.literal (.int 7))⟩]⟩], 1, 0⟩

def storedSchema : Bytes :=
  [1, 0, 0, 0, 0, 0, 0, 0, 0x64, 1, 0, 0, 0, 0, 0, 0, 0, 1, 0, 0, 0, 0, 0, 0, 0, 0x74, 1, 0, 0, 0, 0, 0, 0, 0,
    1, 0, 0, 0, 0, 0, 0, 0, 0x6E, 2, 1, 0, 0, 0, 0, 0, 0, 0, 1, 0, 0, 0, 0, 0, 0, 0, 0x6B, 1, 0, 0, 0, 0, 0, 0, 0,
    0x6E, 1, 0, 1, 0, 1, 0, 0, 0, 0, 1, 0, 0, 0, 7, 0, 0, 0, 0, 0, 0, 0, 1, 0, 0, 0, 0, 0, 0, 0]

theorem bytes_read_are_encoding_float :
    (floatRow.IsTimeless ∧ Row.decoder storedFloat = .ok (floatRow, [0xAA]) ∧
      storedFloat = floatRow.encode ++ [0xAA]) ∧
    numberedSchema.IsTimeless ∧ Database.decoder storedSchema = .ok (numberedSchema, []) ∧
      storedSchema = numberedSchema.encode ++ [] := by
  have row : floatRow.IsTimeless := by simp [Row.IsTimeless, floatRow, Value.type]
  have readRow : Row.decoder storedFloat = .ok (floatRow, [0xAA]) := by rfl
  have schema : numberedSchema.IsTimeless := by
    simp [Database.IsTimeless, DefaultValue.IsTimeless, numberedSchema, Value.type]
  have readSchema : Database.decoder storedSchema = .ok (numberedSchema, []) := by rfl
  exact ⟨⟨row, readRow, bytes_read_are_encoding.1 _ row _ _ readRow⟩, schema, readSchema,
    bytes_read_are_encoding.2.1 _ schema _ _ readSchema⟩

end RowBase
