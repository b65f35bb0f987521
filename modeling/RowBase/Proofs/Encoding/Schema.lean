import RowBase.Config
import RowBase.Proofs.Encoding.RoundTrip

namespace RowBase

open Encoding

theorem Column.restores {c : Column} (small : c.encode.length < 2 ^ 64) :
    Restores Column.decoder c.encode c := by
  simp only [Column.encode, List.length_append] at small
  exact (restores_text (by omega)).bind c.type.restores.map

theorem DefaultValue.restores {d : DefaultValue} (small : d.encode.length < 2 ^ 64) :
    Restores DefaultValue.decoder d.encode d := by
  cases d with
  | literal v =>
    have short : v.encode.length < 2 ^ 64 := by
      simp only [DefaultValue.encode, List.length_append] at small
      omega
    exact (restores_word32 0).bind (Value.restores short).map
  | newIdentifier => exact (restores_word32 1).bind (restores_pure _)
  | currentTime => exact (restores_word32 2).bind (restores_pure _)

theorem Constraint.restores_reference {r : String × String} (small : (encodeReference r).length < 2 ^ 64) :
    Restores Constraint.referenceDecoder (encodeReference r) r := by
  simp only [encodeReference, List.length_append] at small
  exact (restores_text (by omega)).bind (restores_text (by omega)).map

theorem Constraint.restores {k : Constraint} (small : k.encode.length < 2 ^ 64) :
    Restores Constraint.decoder k.encode k := by
  simp only [Constraint.encode, List.length_append] at small
  have name := restores_text (s := k.name) (by omega)
  have column := restores_text (s := k.column) (by omega)
  have references : Restores (Decoder.option referenceDecoder) (option encodeReference k.references) k.references :=
    restores_option @restores_reference (by omega)
  have default : Restores (Decoder.option DefaultValue.decoder) (option DefaultValue.encode k.default) k.default :=
    restores_option @DefaultValue.restores (by omega)
  have read : Restores Constraint.decoder (text k.name ++ (text k.column ++ (Encoding.bool k.primaryKey ++
      (Encoding.bool k.unique ++ (Encoding.bool k.notNull ++ (option encodeReference k.references ++
      option DefaultValue.encode k.default)))))) k :=
    name.bind (column.bind ((restores_bool k.primaryKey).bind ((restores_bool k.unique).bind
      ((restores_bool k.notNull).bind (references.bind default.map)))))
  simpa only [Constraint.encode, List.append_assoc] using read

theorem Column.encode_ne_nil (c : Column) : 0 < c.encode.length := by
  simp only [Column.encode, DataType.encode, byte, List.length_append, List.length_singleton]
  omega

theorem Constraint.encode_ne_nil (k : Constraint) : 0 < k.encode.length := by
  simp only [Constraint.encode, Encoding.bool, List.length_append, List.length_singleton]
  omega

theorem Table.restores {t : Table} (small : t.encode.length < 2 ^ 64) : Restores Table.decoder t.encode t := by
  simp only [Table.encode, List.length_append] at small
  have name := restores_text (s := t.name) (by omega)
  have columns : Restores (Decoder.list Column.decoder) (list Column.encode t.columns) t.columns :=
    restores_list_of_small Column.encode_ne_nil @Column.restores (by omega)
  have constraints : Restores (Decoder.list Constraint.decoder) (list Constraint.encode t.constraints) t.constraints :=
    restores_list_of_small Constraint.encode_ne_nil @Constraint.restores (by omega)
  have read : Restores Table.decoder (text t.name ++ (list Column.encode t.columns ++
      list Constraint.encode t.constraints)) t :=
    name.bind (columns.bind constraints.map)
  simpa only [Table.encode, List.append_assoc] using read

theorem Table.encode_ne_nil (t : Table) : 0 < t.encode.length := by
  simp only [Table.encode, text, chunk, word64, List.length_append, length_littleEndian]
  omega

theorem Database.restores {db : Database} (small : db.encode.length < 2 ^ 64) :
    Restores Database.decoder db.encode db := by
  simp only [Database.encode, List.length_append] at small
  have name := restores_text (s := db.name) (by omega)
  have tables : Restores (Decoder.list Table.decoder) (list Table.encode db.tables) db.tables :=
    restores_list_of_small Table.encode_ne_nil @Table.restores (by omega)
  have read : Restores Database.decoder (text db.name ++ (list Table.encode db.tables ++ (word32 db.major ++
      word32 db.minor))) db :=
    name.bind (tables.bind ((restores_word32 db.major).bind (restores_word32 db.minor).map))
  simpa only [Database.encode, List.append_assoc] using read

theorem Config.restores {c : Config} (small : c.encode.length < 2 ^ 64) : Restores Config.decoder c.encode c := by
  simp only [Config.encode, List.length_append] at small
  have dataDir := restores_text (s := c.dataDir.text) (by omega)
  have schemaFile := restores_text (s := c.schemaFile) (by omega)
  have read : Restores Config.decoder (text c.dataDir.text ++ (text c.schemaFile ++ word64 c.maxRowSize)) c :=
    dataDir.bind (schemaFile.bind (restores_word64 c.maxRowSize).map)
  simpa only [Config.encode, List.append_assoc] using read

/-- Rows, schemas and configurations are read back as they were written, whatever follows them. The bound is the
reach of the lengths that are written; no byte string of a machine gets there. -/
theorem stored_data_restored :
    (∀ r : Row, r.encode.length < 2 ^ 64 → Restores Row.decoder r.encode r) ∧
    (∀ db : Database, db.encode.length < 2 ^ 64 → Restores Database.decoder db.encode db) ∧
    ∀ c : Config, c.encode.length < 2 ^ 64 → Restores Config.decoder c.encode c :=
  ⟨fun _ => Row.restores, fun _ => Database.restores, fun _ => Config.restores⟩

def leapSecond : Timestamp :=
  ⟨⟨-44, 3, 15, 5, 30, 60, 123456789, -330⟩, by decide⟩

def mistypedRow : Row :=
  ⟨"rök", [⟨"x", .int, true, .float ⟨0xFFF8000000000001⟩⟩, ⟨"x", .bytes, false, .time leapSecond⟩], true⟩

def eventSchema : Database :=
  { Database.blank "events" with
    tables := [⟨"t", [⟨"at", .time⟩], [⟨"then", "at", false, true, true, some ("u", "v"), some (.literal (.time leapSecond))⟩]⟩] }

theorem stored_data_restored_leap_second :
    (mistypedRow.encode.length < 2 ^ 64 ∧ Restores Row.decoder mistypedRow.encode mistypedRow) ∧
    (eventSchema.encode.length < 2 ^ 64 ∧ Restores Database.decoder eventSchema.encode eventSchema) ∧
    Config.standard.encode.length < 2 ^ 64 ∧ Restores Config.decoder Config.standard.encode Config.standard := by
  have row : mistypedRow.encode.length < 2 ^ 64 := by decide
  have schema : eventSchema.encode.length < 2 ^ 64 := by decide +kernel
  have config : Config.standard.encode.length < 2 ^ 64 := by decide
  exact ⟨⟨row, stored_data_restored.1 _ row⟩, ⟨schema, stored_data_restored.2.1 _ schema⟩, config,
    stored_data_restored.2.2 _ config⟩

end RowBase
