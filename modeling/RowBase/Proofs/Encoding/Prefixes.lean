import RowBase.Proofs.Encoding.Canonical
import RowBase.Proofs.Encoding.Schema

namespace RowBase

/-- What a decoder gives does not change when more bytes follow; they are left with the rest. -/
def Steady {α : Type} (d : Decoder α) : Prop :=
  ∀ input a rest, d input = .ok (a, rest) → ∀ more, d (input ++ more) = .ok (a, rest ++ more)

section Combinators

variable {α β : Type}

theorem steady_pure (a : α) : Steady (pure a : Decoder α) := by
  intro input b rest read more
  obtain ⟨rfl, rfl⟩ := StateT.pure_eq_ok_iff.mp read
  rfl

theorem steady_fail (f : DecodeFault) : Steady (Decoder.fail f : Decoder α) := by
  intro input a rest read
  cases read

theorem Steady.bind {p : Decoder α} {f : α → Decoder β} (first : Steady p) (second : ∀ a, Steady (f a)) :
    Steady (p >>= f) := by
  intro input b rest read more
  obtain ⟨a, mid, readFirst, readSecond⟩ := StateT.bind_eq_ok_iff.mp read
  rw [StateT.bind_of_ok _ (first input a mid readFirst more), second a mid b rest readSecond more]

theorem Steady.map {p : Decoder α} (steady : Steady p) (f : α → β) : Steady (p >>= fun a => pure (f a)) :=
  steady.bind fun a => steady_pure (f a)

theorem Steady.decode_take {d : Decoder α} (steady : Steady d) {bs : Bytes} {a : α} (restores : Restores d bs a)
    {k : Nat} (cut : k < bs.length) : ∃ f, d.decode (bs.take k) = .error f := by
  cases read : d (bs.take k) with
  | error f => exact ⟨f, by rw [Decoder.decode, StateT.run, read]; rfl⟩
  | ok found =>
    rcases found with ⟨b, rest⟩
    have whole := steady _ b rest read (bs.drop k)
    rw [List.take_append_drop] at whole
    have full := restores []
    rw [List.append_nil, whole, Except.ok.injEq, Prod.mk.injEq] at full
    have missing : (bs.drop k).length = 0 := by simp [(List.append_eq_nil_iff.mp full.2).2]
    rw [List.length_drop] at missing
    omega

end Combinators

namespace Decoder

variable {α : Type}

theorem steady_take (n : Nat) (short : DecodeFault) : Steady (take n short) := by
  intro input bs rest read more
  obtain ⟨length, rfl⟩ := Encoding.take_eq_ok read
  rw [List.append_assoc]
  exact Encoding.restores_take length short (rest ++ more)

theorem steady_byte : Steady byte := by
  intro input b rest read more
  cases input with
  | nil => cases read
  | cons =>
    cases read
    rfl

theorem steady_word32 : Steady word32 :=
  (steady_take 4 _).map _

theorem steady_word64 : Steady word64 :=
  (steady_take 8 _).map _

theorem steady_bool : Steady bool := by
  refine steady_byte.bind fun b => ?_
  split
  · exact steady_pure _
  · split
    · exact steady_pure _
    · exact steady_fail _

theorem steady_chunk : Steady chunk :=
  steady_word64.bind fun n => steady_take n.toNat _

theorem steady_text : Steady text := by
  refine steady_chunk.bind fun bs => ?_
  split
  · exact steady_pure _
  · exact steady_fail _

theorem steady_option {item : Decoder α} (steady : Steady item) : Steady (option item) := by
  refine steady_byte.bind fun b => ?_
  split
  · exact steady_pure _
  · split
    · exact steady.map _
    · exact steady_fail _

theorem steady_times {item : Decoder α} (steady : Steady item) (n : Nat) : Steady (times item n) := by
  induction n with
  | zero => exact steady_pure []
  | succ n ih => exact steady.bind fun a => ih.map (a :: ·)

theorem steady_list {item : Decoder α} (steady : Steady item) : Steady (list item) :=
  steady_word64.bind fun n => steady_times steady n.toNat

end Decoder

open Decoder

theorem DataType.steady : Steady DataType.decoder := by
  refine steady_byte.bind fun n => ?_
  split
  · exact steady_pure _
  · exact steady_fail _

theorem Identifier.steady : Steady Identifier.decoder := by
  intro input id rest read more
  rw [Identifier.determines id input rest read, List.append_assoc]
  exact Identifier.restores id (rest ++ more)

theorem Timestamp.steady : Steady Timestamp.decoder := by
  refine steady_text.bind fun s => ?_
  split
  · exact steady_pure _
  · exact steady_fail _

theorem Value.steady : Steady Value.decoder := by
  refine steady_word32.bind fun n => ?_
  split
  · exact steady_bool.map _
  · exact steady_word64.map _
  · exact steady_word64.map _
  · exact steady_text.map _
  · exact Timestamp.steady.map _
  · exact steady_chunk.map _
  · exact Identifier.steady.map _
  · exact steady_fail _

theorem Field.steady : Steady Field.decoder :=
  steady_text.bind fun _ => DataType.steady.bind fun _ => steady_bool.bind fun _ => Value.steady.map _

theorem Row.steady : Steady Row.decoder :=
  steady_text.bind fun _ => (steady_list Field.steady).bind fun _ => steady_bool.map _

theorem Column.steady : Steady Column.decoder :=
  steady_text.bind fun _ => DataType.steady.map _

theorem DefaultValue.steady : Steady DefaultValue.decoder := by
  refine steady_word32.bind fun n => ?_
  split
  · exact Value.steady.map _
  · exact steady_pure _
  · exact steady_pure _
  · exact steady_fail _

theorem Constraint.steady_reference : Steady Constraint.referenceDecoder :=
  steady_text.bind fun _ => steady_text.map _

theorem Constraint.steady : Steady Constraint.decoder :=
  steady_text.bind fun _ => steady_text.bind fun _ => steady_bool.bind fun _ => steady_bool.bind fun _ =>
    steady_bool.bind fun _ => (steady_option steady_reference).bind fun _ => (steady_option DefaultValue.steady).map _

theorem Table.steady : Steady Table.decoder :=
  steady_text.bind fun _ => (steady_list Column.steady).bind fun _ => (steady_list Constraint.steady).map _

theorem Database.steady : Steady Database.decoder :=
  steady_text.bind fun _ => (steady_list Table.steady).bind fun _ => steady_word32.bind fun _ => steady_word32.map _

theorem Config.steady : Steady Config.decoder :=
  steady_text.bind fun _ => steady_text.bind fun _ => steady_word64.map _

end RowBase
