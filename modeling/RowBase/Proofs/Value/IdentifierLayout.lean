import Mathlib.Data.List.Forall2
import Mathlib.Data.List.TakeDrop
import RowBase.Value.Identifier

namespace RowBase

namespace Text

def hexDigits : List Char :=
  "0123456789abcdef".toList

theorem isLowerHex_iff {c : Char} : isLowerHex c = true ↔ c ∈ hexDigits := by
  constructor
  · intro digit
    have small : c.toNat < 128 := by
      simp only [isLowerHex, Char.isDigit, Bool.or_eq_true, Bool.and_eq_true, decide_eq_true_eq] at digit
      rcases digit with ⟨-, high⟩ | ⟨-, high⟩
      · have high : c.toNat ≤ 57 := high
        omega
      · have high : c.toNat ≤ 102 := high
        omega
    have each : ∀ n : Fin 128, isLowerHex (Char.ofNat n.val) = true → Char.ofNat n.val ∈ hexDigits := by decide
    have found := each ⟨c.toNat, small⟩
    rw [Char.ofNat_toNat] at found
    exact found digit
  · intro member
    have each : hexDigits.all isLowerHex = true := by decide
    exact List.all_eq_true.mp each c member

theorem mem_hexDigits_iff {c : Char} : c ∈ hexDigits ↔ ∃ n < 16, n.digitChar = c := by
  have digits : hexDigits = (List.range 16).map Nat.digitChar := by decide
  simp [digits]

theorem mem_hexDigits_of_mem_hex {bs : Bytes} {c : Char} (member : c ∈ hex bs) : c ∈ hexDigits := by
  obtain ⟨b, -, among⟩ := List.mem_flatMap.mp member
  have bound := b.toNat_lt
  simp only [hexByte, List.mem_cons, List.not_mem_nil, or_false] at among
  rcases among with rfl | rfl
  · exact mem_hexDigits_iff.mpr ⟨_, by omega, rfl⟩
  · exact mem_hexDigits_iff.mpr ⟨_, by omega, rfl⟩

theorem length_hex (bs : Bytes) : (hex bs).length = 2 * bs.length := by
  simp [hex, hexByte, Nat.mul_comm]

theorem exists_hex (count : Nat) {cs : List Char} (digits : ∀ c ∈ cs, c ∈ hexDigits)
    (length : cs.length = 2 * count) : ∃ bs, hex bs = cs ∧ bs.length = count := by
  induction count generalizing cs with
  | zero => exact ⟨[], (List.length_eq_zero_iff.mp length).symm, rfl⟩
  | succ count ih =>
    match cs, length with
    | c :: d :: rest, length =>
      obtain ⟨hi, highSmall, rfl⟩ := mem_hexDigits_iff.mp (digits c (by simp))
      obtain ⟨lo, lowSmall, rfl⟩ := mem_hexDigits_iff.mp (digits d (by simp))
      obtain ⟨bs, rfl, filled⟩ := ih (fun c member => digits c (by simp [member]))
        (by simp only [List.length_cons] at length; omega : rest.length = 2 * count)
      have value : (UInt8.ofNat (16 * hi + lo)).toNat = 16 * hi + lo := by
        rw [UInt8.toNat_ofNat']
        omega
      have high : (16 * hi + lo) / 16 = hi := by omega
      have low : (16 * hi + lo) % 16 = lo := by omega
      refine ⟨.ofNat (16 * hi + lo) :: bs, ?_, by simp [filled]⟩
      simp only [hex, List.flatMap_cons, hexByte, value, high, low]
      rfl

theorem byteLength_of_single {cs : List Char} (single : ∀ c ∈ cs, c.utf8Size = 1) : byteLength cs = cs.length := by
  induction cs with
  | nil => rfl
  | cons c cs ih =>
    rw [byteLength, single c (by simp), ih fun d member => single d (by simp [member]), List.length_cons, Nat.add_comm]

theorem exists_offset {cs : List Char} {c : Char} (member : c ∈ cs) (start : Nat) :
    ∃ i, (i, c) ∈ charOffsets start cs := by
  induction cs generalizing start with
  | nil => cases member
  | cons d cs ih =>
    rcases List.mem_cons.mp member with rfl | member
    · exact ⟨start, by simp [charOffsets]⟩
    · obtain ⟨i, among⟩ := ih member (start + d.utf8Size)
      exact ⟨i, by simp [charOffsets, among]⟩

theorem mem_charOffsets_iff {cs : List Char} (single : ∀ c ∈ cs, c.utf8Size = 1) {start i : Nat} {c : Char} :
    (i, c) ∈ charOffsets start cs ↔ start ≤ i ∧ cs[i - start]? = some c := by
  induction cs generalizing start with
  | nil => simp [charOffsets]
  | cons d cs ih =>
    rw [charOffsets, single d (by simp), List.mem_cons, ih fun d member => single d (by simp [member])]
    constructor
    · intro h
      rcases h with ⟨⟨⟩⟩ | ⟨behind, found⟩
      · simp
      · have place : i - start = i - (start + 1) + 1 := by omega
        rw [place, List.getElem?_cons_succ]
        exact ⟨by omega, found⟩
    · intro h
      obtain ⟨behind, found⟩ := h
      rcases Nat.eq_or_lt_of_le behind with rfl | later
      · left
        simpa [eq_comm] using found
      · have place : i - start = i - (start + 1) + 1 := by omega
        rw [place, List.getElem?_cons_succ] at found
        exact .inr ⟨later, found⟩

theorem mem_or_behind {α : Type} {as bs : List α} {a b : α} {i : Nat} (found : (as ++ b :: bs)[i]? = some a)
    (other : i ≠ as.length) : a ∈ as ∨ as.length < i ∧ bs[i - as.length - 1]? = some a := by
  rw [List.getElem?_append] at found
  split at found
  · exact .inl (List.mem_of_getElem? found)
  · have place : i - as.length = i - as.length - 1 + 1 := by omega
    rw [place, List.getElem?_cons_succ] at found
    exact .inr ⟨by omega, found⟩

theorem filter_hex (bs : Bytes) : (hex bs).filter (· != '-') = hex bs := by
  have each : hexDigits.all (· != '-') = true := by decide
  exact List.filter_eq_self.mpr fun c member => List.all_eq_true.mp each c (mem_hexDigits_of_mem_hex member)

end Text

namespace Identifier

/-- The layout of the written form: 36 characters, with a hyphen at the offsets of hyphens and a digit elsewhere. -/
structure HasLayout (cs : List Char) : Prop where
  length : cs.length = 36
  hyphen : ∀ i ∈ hyphens, cs[i]? = some '-'
  digit : ∀ i c, i ∉ hyphens → cs[i]? = some c → c ∈ Text.hexDigits

theorem utf8Size_of_hyphen_or_digit {c : Char} (among : c = '-' ∨ c ∈ Text.hexDigits) : c.utf8Size = 1 := by
  have each : ('-' :: Text.hexDigits).all (·.utf8Size == 1) = true := by decide
  exact beq_iff_eq.mp (List.all_eq_true.mp each c (List.mem_cons.mpr among))

theorem HasLayout.hyphen_or_digit {cs : List Char} (layout : HasLayout cs) {c : Char} (member : c ∈ cs) :
    c = '-' ∨ c ∈ Text.hexDigits := by
  obtain ⟨i, found⟩ := List.mem_iff_getElem?.mp member
  by_cases hyphen : i ∈ hyphens
  · left
    rw [layout.hyphen i hyphen, Option.some.injEq] at found
    exact found.symm
  · exact .inr (layout.digit i c hyphen found)

theorem isLayout_iff {cs : List Char} : isLayout cs = true ↔ HasLayout cs := by
  simp only [isLayout, Bool.and_eq_true, beq_iff_eq, List.all_eq_true, Prod.forall]
  constructor
  · intro h
    obtain ⟨size, each⟩ := h
    have ascii : ∀ c ∈ cs, c.utf8Size = 1 := by
      intro c member
      obtain ⟨i, offset⟩ := Text.exists_offset member 0
      have passes := each i c offset
      split at passes
      · exact utf8Size_of_hyphen_or_digit (.inl (by simpa using passes))
      · exact utf8Size_of_hyphen_or_digit (.inr (Text.isLowerHex_iff.mp passes))
    have length : cs.length = 36 := by rw [← Text.byteLength_of_single ascii, size]
    have offset {i : Nat} {c : Char} (found : cs[i]? = some c) : (i, c) ∈ Text.charOffsets 0 cs :=
      (Text.mem_charOffsets_iff ascii).mpr ⟨Nat.zero_le i, found⟩
    refine ⟨length, fun i hyphen => ?_, fun i c other found => ?_⟩
    · have inside : i < cs.length := by
        have below : ∀ i ∈ hyphens, i < 36 := by decide
        rw [length]
        exact below i hyphen
      have passes := each i cs[i] (offset (List.getElem?_eq_getElem inside))
      rw [if_pos (List.contains_iff_mem.mpr hyphen), beq_iff_eq] at passes
      rw [List.getElem?_eq_getElem inside, passes]
    · have passes := each i c (offset found)
      rw [if_neg (by simpa using other)] at passes
      exact Text.isLowerHex_iff.mp passes
  · intro layout
    have ascii : ∀ c ∈ cs, c.utf8Size = 1 := fun c member =>
      utf8Size_of_hyphen_or_digit (layout.hyphen_or_digit member)
    refine ⟨by rw [Text.byteLength_of_single ascii, layout.length], fun i c offset => ?_⟩
    have found := ((Text.mem_charOffsets_iff ascii).mp offset).2
    split
    · rename_i hyphen
      have same := layout.hyphen i (List.contains_iff_mem.mp hyphen)
      rw [Nat.sub_zero, same, Option.some.injEq] at found
      exact beq_iff_eq.mpr found.symm
    · rename_i other
      exact Text.isLowerHex_iff.mpr (layout.digit i c (by simpa using other) found)

/-- The digits of a text of the layout, parted by its hyphens. -/
structure Groups (cs first second third fourth fifth : List Char) : Prop where
  whole : cs = first ++ '-' :: (second ++ '-' :: (third ++ '-' :: (fourth ++ '-' :: fifth)))
  lengths : first.length = 8 ∧ second.length = 4 ∧ third.length = 4 ∧ fourth.length = 4 ∧ fifth.length = 12
  digits : ∀ group ∈ [first, second, third, fourth, fifth], ∀ c ∈ group, c ∈ Text.hexDigits

theorem Groups.hasLayout {cs first second third fourth fifth : List Char}
    (groups : Groups cs first second third fourth fifth) : HasLayout cs := by
  obtain ⟨rfl, ⟨eight, four, four', four'', twelve⟩, digits⟩ := groups
  refine ⟨by simp [*], by simp [hyphens, List.getElem?_append, *], fun i c other found => ?_⟩
  simp only [hyphens, List.mem_cons, List.not_mem_nil, or_false, not_or] at other
  have digit (group : List Char) (among : group ∈ [first, second, third, fourth, fifth]) (inside : c ∈ group) :
      c ∈ Text.hexDigits := digits group among c inside
  rcases Text.mem_or_behind found (by omega) with inside | ⟨behind, found⟩
  · exact digit first (by simp) inside
  rcases Text.mem_or_behind found (by omega) with inside | ⟨behind', found⟩
  · exact digit second (by simp) inside
  rcases Text.mem_or_behind found (by omega) with inside | ⟨behind'', found⟩
  · exact digit third (by simp) inside
  rcases Text.mem_or_behind found (by omega) with inside | ⟨-, found⟩
  · exact digit fourth (by simp) inside
  · exact digit fifth (by simp) (List.mem_of_getElem? found)

theorem HasLayout.exists_groups {cs : List Char} (layout : HasLayout cs) :
    ∃ first second third fourth fifth, Groups cs first second third fourth fifth := by
  have parted (i : Nat) (hyphen : i ∈ hyphens) : cs.drop i = '-' :: cs.drop (i + 1) := by
    obtain ⟨inside, found⟩ := List.getElem?_eq_some_iff.mp (layout.hyphen i hyphen)
    rw [List.drop_eq_getElem_cons inside, found]
  refine ⟨(cs.drop 0).take 8, (cs.drop 9).take 4, (cs.drop 14).take 4, (cs.drop 19).take 4, cs.drop 24, ?_, ?_, ?_⟩
  · rw [← parted 23 (by decide), List.drop_take_append_drop cs 19 4, ← parted 18 (by decide),
      List.drop_take_append_drop cs 14 4, ← parted 13 (by decide), List.drop_take_append_drop cs 9 4,
      ← parted 8 (by decide), List.drop_take_append_drop cs 0 8, List.drop_zero]
  · simp [layout.length]
  · have digits (i n : Nat) (apart : ∀ j ∈ hyphens, j < i ∨ i + n ≤ j) :
        ∀ c ∈ (cs.drop i).take n, c ∈ Text.hexDigits := by
      intro c member
      obtain ⟨k, found⟩ := List.mem_iff_getElem?.mp member
      rw [List.getElem?_take, List.getElem?_drop] at found
      split at found
      · refine layout.digit (i + k) c (fun hyphen => ?_) found
        have := apart _ hyphen
        omega
      · cases found
    have last : cs.drop 24 = (cs.drop 24).take 12 := (List.take_of_length_le (by simp [layout.length])).symm
    rw [last]
    simp only [List.forall_mem_cons]
    exact ⟨digits 0 8 (by decide), digits 9 4 (by decide), digits 14 4 (by decide), digits 19 4 (by decide),
      digits 24 12 (by decide), by simp⟩

theorem groups_text (id : Identifier) : Groups id.text.toList (Text.hex (id.bytes.take 4))
    (Text.hex ((id.bytes.drop 4).take 2)) (Text.hex ((id.bytes.drop 6).take 2)) (Text.hex ((id.bytes.drop 8).take 2))
    (Text.hex (id.bytes.drop 10)) := by
  refine ⟨by simp [text], by simp [Text.length_hex, id.size_eq], ?_⟩
  have digits (bs : Bytes) : ∀ c ∈ Text.hex bs, c ∈ Text.hexDigits := fun _ => Text.mem_hexDigits_of_mem_hex
  simp only [List.forall_mem_cons]
  exact ⟨digits _, digits _, digits _, digits _, digits _, by simp⟩

theorem hasLayout_text (id : Identifier) : HasLayout id.text.toList :=
  id.groups_text.hasLayout

theorem HasLayout.exists_text {s : String} (layout : HasLayout s.toList) : ∃ id : Identifier, id.text = s := by
  obtain ⟨first, second, third, fourth, fifth, whole, ⟨eight, four, four', four'', twelve⟩, digits⟩ :=
    layout.exists_groups
  obtain ⟨as, rfl, firstBytes⟩ := Text.exists_hex 4 (digits first (by simp)) eight
  obtain ⟨bs, rfl, secondBytes⟩ := Text.exists_hex 2 (digits second (by simp)) four
  obtain ⟨cs, rfl, thirdBytes⟩ := Text.exists_hex 2 (digits third (by simp)) four'
  obtain ⟨ds, rfl, fourthBytes⟩ := Text.exists_hex 2 (digits fourth (by simp)) four''
  obtain ⟨es, rfl, fifthBytes⟩ := Text.exists_hex 6 (digits fifth (by simp)) twelve
  refine ⟨⟨as ++ bs ++ cs ++ ds ++ es, by simp [*]⟩, ?_⟩
  rw [← String.toList_inj, whole]
  simp [text, List.drop_append, List.drop_eq_nil_of_le, *]

theorem ofText?_text (id : Identifier) : ofText? id.text = some id := by
  have digits : id.text.toList.filter (· != '-') = Text.hex id.bytes := by
    have parted := List.drop_take_append_drop id.bytes
    rw [id.groups_text.whole]
    simp only [List.filter_append, List.filter_cons, Text.filter_hex, bne_self_eq_false, Bool.false_eq_true, if_false]
    simp only [Text.hex, ← List.flatMap_append]
    rw [parted 8 2, parted 6 2, parted 4 2, List.take_append_drop]
  rw [ofText?, if_pos (isLayout_iff.mpr id.hasLayout_text), digits, Text.ofHex?_hex]
  simp [id.size_eq]

theorem ofText?_eq_some_iff {s : String} {id : Identifier} : ofText? s = some id ↔ id.text = s := by
  constructor
  · intro read
    have layout : HasLayout s.toList := by
      by_contra other
      simp [ofText?, mt isLayout_iff.mp other] at read
    obtain ⟨id', rfl⟩ := layout.exists_text
    rw [ofText?_text, Option.some.injEq] at read
    rw [read]
  · rintro rfl
    exact ofText?_text id

theorem hasLayout_iff {s : String} : HasLayout s.toList ↔ ∃ id, ofText? s = some id := by
  simp only [ofText?_eq_some_iff]
  exact ⟨HasLayout.exists_text, fun ⟨id, written⟩ => written ▸ id.hasLayout_text⟩

end Identifier

end RowBase
