import RowBase.Encoding.Row
import RowBase.Proofs.Reading
import RowBase.Proofs.Timestamp.ReadBack

namespace RowBase

/-- From the bytes, whatever follows them, the decoder reads the value and leaves what follows. -/
def Restores {α : Type} (d : Decoder α) (bs : Bytes) (a : α) : Prop :=
  ∀ rest, d (bs ++ rest) = .ok (a, rest)

section Combinators

variable {α β : Type} {p : Decoder α} {bs cs : Bytes} {a : α} {b : β}

theorem restores_pure (a : α) : Restores (pure a) [] a := fun _ => rfl

theorem Restores.bind {f : α → Decoder β} (first : Restores p bs a) (second : Restores (f a) cs b) :
    Restores (p >>= f) (bs ++ cs) b := by
  intro rest
  rw [List.append_assoc, StateT.bind_of_ok _ (first _), second]

theorem Restores.map {f : α → β} (restores : Restores p bs a) :
    Restores (p >>= fun a => pure (f a)) bs (f a) := by
  intro rest
  rw [StateT.bind_of_ok _ (restores rest)]
  rfl

theorem Restores.decode (restores : Restores p bs a) : p.decode bs = .ok a := by
  have read := restores []
  rw [List.append_nil] at read
  rw [Decoder.decode, StateT.run, read]
  rfl

end Combinators

namespace Encoding

theorem length_littleEndian (size n : Nat) : (littleEndian size n).length = size := by
  induction size generalizing n with
  | zero => rfl
  | succ size ih => simp [littleEndian, ih]

theorem ofLittleEndian_littleEndian {size n : Nat} (small : n < 256 ^ size) :
    ofLittleEndian (littleEndian size n) = n := by
  induction size generalizing n with
  | zero =>
    have : n = 0 := by simpa using small
    simp [littleEndian, ofLittleEndian, this]
  | succ size ih =>
    have quotient : n / 256 < 256 ^ size := Nat.div_lt_of_lt_mul (by rwa [← Nat.pow_succ'])
    have digit : (UInt8.ofNat n).toNat = n % 256 := by simp
    rw [littleEndian, ofLittleEndian, ih quotient, digit]
    omega

theorem restores_take {bs : Bytes} {n : Nat} (length : bs.length = n) (short : DecodeFault) :
    Restores (Decoder.take n short) bs bs := by
  intro rest
  subst length
  rw [Decoder.take, List.take_left, List.drop_left, if_pos rfl]

theorem restores_byte (b : UInt8) : Restores Decoder.byte [b] b := fun _ => rfl

theorem restores_word32 (n : UInt32) : Restores Decoder.word32 (word32 n) n := by
  have restored : UInt32.ofNat (ofLittleEndian (word32 n)) = n := by
    rw [word32, ofLittleEndian_littleEndian n.toNat_lt, UInt32.ofNat_toNat]
  have read := (restores_take (length_littleEndian 4 n.toNat) .endOfInput).map (f := fun bs =>
    UInt32.ofNat (ofLittleEndian bs))
  rwa [← word32, restored] at read

theorem restores_word64 (n : UInt64) : Restores Decoder.word64 (word64 n) n := by
  have restored : UInt64.ofNat (ofLittleEndian (word64 n)) = n := by
    rw [word64, ofLittleEndian_littleEndian n.toNat_lt, UInt64.ofNat_toNat]
  have read := (restores_take (length_littleEndian 8 n.toNat) .endOfInput).map (f := fun bs =>
    UInt64.ofNat (ofLittleEndian bs))
  rwa [← word64, restored] at read

theorem restores_bool (b : Bool) : Restores Decoder.bool (bool b) b := by
  intro rest
  cases b <;> rfl

theorem restores_chunk {bs : Bytes} (small : bs.length < 2 ^ 64) : Restores Decoder.chunk (chunk bs) bs := by
  have count : (UInt64.ofNat bs.length).toNat = bs.length := UInt64.toNat_ofNat_of_lt' small
  exact (restores_word64 _).bind (restores_take count.symm _)

theorem restores_text {s : String} (small : (text s).length < 2 ^ 64) : Restores Decoder.text (text s) s := by
  have short : (Text.utf8 s).length < 2 ^ 64 := by
    simp only [text, chunk, List.length_append] at small
    omega
  intro rest
  rw [Decoder.text, text, StateT.bind_of_ok _ (restores_chunk short rest), Text.ofUtf8?_utf8]
  rfl

theorem restores_times {α : Type} {item : Decoder α} {encode : α → Bytes} {as : List α}
    (each : ∀ a ∈ as, Restores item (encode a) a) :
    Restores (Decoder.times item as.length) (as.flatMap encode) as := by
  induction as with
  | nil => exact restores_pure []
  | cons a as ih =>
    have others := ih fun b member => each b (by simp [member])
    exact (each a (by simp)).bind others.map

theorem restores_list {α : Type} {item : Decoder α} {encode : α → Bytes} {as : List α}
    (each : ∀ a ∈ as, Restores item (encode a) a) (few : as.length < 2 ^ 64) :
    Restores (Decoder.list item) (list encode as) as := by
  have count : (UInt64.ofNat as.length).toNat = as.length := UInt64.toNat_ofNat_of_lt' few
  have items : Restores (Decoder.times item (UInt64.ofNat as.length).toNat) (as.flatMap encode) as := by
    rw [count]
    exact restores_times each
  exact (restores_word64 _).bind items

theorem length_le_of_mem {α : Type} {encode : α → Bytes} {as : List α} {a : α} (member : a ∈ as) :
    (encode a).length ≤ (as.flatMap encode).length := by
  obtain ⟨before, after, rfl⟩ := List.append_of_mem member
  simp only [List.flatMap_append, List.flatMap_cons, List.length_append]
  omega

theorem length_le_flatMap {α : Type} {encode : α → Bytes} (filled : ∀ a, 0 < (encode a).length) (as : List α) :
    as.length ≤ (as.flatMap encode).length := by
  induction as with
  | nil => simp
  | cons a as ih =>
    have := filled a
    simp only [List.flatMap_cons, List.length_append, List.length_cons]
    omega

theorem restores_list_of_small {α : Type} {item : Decoder α} {encode : α → Bytes}
    (filled : ∀ a, 0 < (encode a).length) (each : ∀ a, (encode a).length < 2 ^ 64 → Restores item (encode a) a)
    {as : List α} (small : (list encode as).length < 2 ^ 64) :
    Restores (Decoder.list item) (list encode as) as := by
  simp only [list, List.length_append] at small
  have few := length_le_flatMap filled as
  refine restores_list (fun a member => each a ?_) (by omega)
  have : (encode a).length ≤ (as.flatMap encode).length := length_le_of_mem member
  omega

theorem restores_option {α : Type} {item : Decoder α} {encode : α → Bytes}
    (each : ∀ a, (encode a).length < 2 ^ 64 → Restores item (encode a) a) {o : Option α}
    (small : (option encode o).length < 2 ^ 64) : Restores (Decoder.option item) (option encode o) o := by
  cases o with
  | none => exact fun _ => rfl
  | some a =>
    have short : (encode a).length < 2 ^ 64 := by
      simp only [option, List.length_cons] at small
      omega
    exact (restores_byte 1).bind (each a short).map

end Encoding

theorem DataType.restores (t : DataType) : Restores DataType.decoder t.encode t := by
  intro rest
  rw [DataType.decoder, DataType.encode, Encoding.byte, StateT.bind_of_ok _ (Encoding.restores_byte _ rest)]
  simp only [DataType.ofOrdinal?_ordinal]
  rfl

theorem Identifier.restores (id : Identifier) : Restores Identifier.decoder id.encode id := by
  intro rest
  have taken : (id.bytes ++ rest).take 16 = id.bytes := by rw [← id.size_eq, List.take_left]
  have dropped : (id.bytes ++ rest).drop 16 = rest := by rw [← id.size_eq, List.drop_left]
  simp [Identifier.decoder, Identifier.encode, taken, dropped, id.size_eq]

theorem Timestamp.restores {t : Timestamp} (small : t.encode.length < 2 ^ 64) :
    Restores Timestamp.decoder t.encode t := by
  intro rest
  rw [Timestamp.decoder, Timestamp.encode, StateT.bind_of_ok _ (Encoding.restores_text small rest),
    Timestamp.read_text]
  rfl

theorem Value.restores {v : Value} (small : v.encode.length < 2 ^ 64) :
    Restores Value.decoder v.encode v := by
  cases v with
  | bool b => exact (Encoding.restores_word32 0).bind (Encoding.restores_bool b).map
  | int i =>
    have read := (Encoding.restores_word64 i.toUInt64).map (f := fun n => Value.int n.toInt64)
    exact (Encoding.restores_word32 1).bind read
  | float x => exact (Encoding.restores_word32 2).bind (Encoding.restores_word64 x.bits).map
  | string s =>
    have short : (Encoding.text s).length < 2 ^ 64 := by
      simp only [Value.encode, List.length_append] at small
      omega
    exact (Encoding.restores_word32 3).bind (Encoding.restores_text short).map
  | time t =>
    have short : t.encode.length < 2 ^ 64 := by
      simp only [Value.encode, List.length_append] at small
      omega
    exact (Encoding.restores_word32 4).bind (Timestamp.restores short).map
  | bytes bs =>
    have short : bs.length < 2 ^ 64 := by
      simp only [Value.encode, Encoding.chunk, List.length_append] at small
      omega
    exact (Encoding.restores_word32 5).bind (Encoding.restores_chunk short).map
  | uuid id => exact (Encoding.restores_word32 6).bind (Identifier.restores id).map

theorem Field.restores {f : Field} (small : f.encode.length < 2 ^ 64) :
    Restores Field.decoder f.encode f := by
  simp only [Field.encode, List.length_append] at small
  have name := Encoding.restores_text (s := f.name) (by omega)
  have value := Value.restores (v := f.value) (by omega)
  have read : Restores Field.decoder (Encoding.text f.name ++ (f.type.encode ++
      (Encoding.bool f.isNull ++ f.value.encode))) f :=
    name.bind (f.type.restores.bind ((Encoding.restores_bool f.isNull).bind value.map))
  simpa only [Field.encode, List.append_assoc] using read

theorem Field.encode_ne_nil (f : Field) : 0 < f.encode.length := by
  simp only [Field.encode, DataType.encode, Encoding.byte, List.length_append, List.length_singleton]
  omega

theorem Row.restores {r : Row} (small : r.encode.length < 2 ^ 64) : Restores Row.decoder r.encode r := by
  simp only [Row.encode, List.length_append] at small
  have table := Encoding.restores_text (s := r.table) (by omega)
  have fields : Restores (Decoder.list Field.decoder) (Encoding.list Field.encode r.fields) r.fields :=
    Encoding.restores_list_of_small Field.encode_ne_nil @Field.restores (by omega)
  have read : Restores Row.decoder (Encoding.text r.table ++ (Encoding.list Field.encode r.fields ++
      Encoding.bool r.deleted)) r :=
    table.bind (fields.bind (Encoding.restores_bool r.deleted).map)
  simpa only [Row.encode, List.append_assoc] using read

theorem Row.decode_encode {r : Row} (small : r.encode.length < 2 ^ 64) : Row.decode r.encode = .ok r := by
  exact (Row.restores small).decode

end RowBase
