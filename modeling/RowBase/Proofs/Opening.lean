import Mathlib.Data.List.Infix
import RowBase.Proofs.Execution.Coercion
import RowBase.Proofs.Schema.TableValidity
import RowBase.Proofs.Storage.SchemaFile
import RowBase.Registry

namespace RowBase

namespace Text

def Apart (s t : String) : Prop :=
  ¬s.toList <+: t.toList ∧ ¬t.toList <+: s.toList

instance (s t : String) : Decidable (Apart s t) :=
  inferInstanceAs (Decidable (_ ∧ _))

namespace Apart

variable {s t : String} (apart : Apart s t)

include apart

theorem append (rest : String) : Apart (s ++ rest) t := by
  rw [Apart, String.toList_append]
  constructor
  · intro starts
    exact apart.1 ((List.prefix_append _ _).trans starts)
  · intro starts
    rcases List.prefix_or_prefix_of_prefix starts (List.prefix_append _ _) with starts | starts
    · exact apart.2 starts
    · exact apart.1 starts

theorem prepend (first : String) : Apart (first ++ s) (first ++ t) := by
  simpa [Apart, List.prefix_append_right_inj] using apart

theorem ne (rest : String) : s ≠ t ++ rest := by
  intro same
  rw [same, Apart, String.toList_append] at apart
  exact apart.2 (List.prefix_append _ _)

end Apart

end Text

inductive OpenFault : Error → Prop
  | emptySchemaFile : OpenFault .emptySchemaFile
  | rowLimitOutOfRange (n : Nat) : OpenFault (.rowLimitOutOfRange n)
  | readFailed (p : String) (f : FileFault) : OpenFault (.readFailed p f)
  | undecodable (f : DecodeFault) : OpenFault (.undecodable f)
  | invalidTable (table : String) (f : TableFault) : OpenFault (.invalidTable table f)

namespace OpenFault

variable {c : Config} {db : Database} {t : FileTree} {e : Error}

theorem of_config (refused : c.validate = .error e) : OpenFault e := by
  rw [Config.validate] at refused
  split at refused
  · cases refused
    exact .emptySchemaFile
  · split at refused
    · cases refused
      exact .rowLimitOutOfRange _
    · cases refused

theorem of_schema (refused : db.validate = .error e) : OpenFault e := by
  rcases Except.forM_cases Table.validate db.tables with ⟨passed, -⟩ | ⟨_, table, _, _, -, -, invalid, first⟩
  · rw [Database.validate, passed] at refused
    cases refused
  · rw [Database.validate, first] at refused
    cases refused
    obtain ⟨f, -, rfl⟩ := Table.validate_eq_error_iff.mp invalid
    exact .invalidTable _ f

theorem of_file {p : FilePath} (unread : t.load p = .error e) : OpenFault e := by
  rw [FileTree.load] at unread
  split at unread
  · cases unread
  · cases unread
    exact .readFailed _ _

theorem of_load (failed : Database.load c t = .error e) : OpenFault e := by
  rw [Database.load, Except.bind_eq_error_iff] at failed
  rcases failed with unread | ⟨bs, -, failed⟩
  · exact of_file unread
  · cases decoded : Database.decode bs with
    | error f =>
      rw [decoded] at failed
      cases failed
      exact .undecodable f
    | ok db =>
      rw [decoded] at failed
      dsimp only at failed
      rw [Except.bind_eq_error_iff] at failed
      rcases failed with invalid | ⟨_, -, loaded⟩
      · exact of_schema invalid
      · cases loaded

theorem of_openDatabase (failed : c.openDatabase t = .error e) : OpenFault e := by
  rw [Config.openDatabase, Except.bind_eq_error_iff] at failed
  rcases failed with refused | ⟨_, -, failed⟩
  · exact of_config refused
  · rw [Except.bind_eq_error_iff] at failed
    rcases failed with failed | ⟨_, -, opened⟩
    · exact of_load failed
    · cases opened

end OpenFault

theorem DecodeFault.message_apart (f : DecodeFault) : Text.Apart f.message "unknown driver " := by
  cases f with
  | endOfInput | lengthBeyondInput => decide
  | utf8 f =>
    have apart : Text.Apart "string is not valid utf8: " "unknown driver " := by decide
    exact apart.append f.message
  | boolByte b =>
    have apart : Text.Apart "invalid u8 while decoding bool, expected 0 or 1, found " "unknown driver " := by decide
    exact apart.append (toString b)
  | optionByte b =>
    have apart : Text.Apart "tag for enum is not valid, found " "unknown driver " := by decide
    exact apart.append (toString b)
  | typeOrdinal b =>
    have apart : Text.Apart "unknown column type ordinal " "unknown driver " := by decide
    exact apart.append (toString b)
  | variant found count =>
    have apart : Text.Apart "invalid value: integer \x60" "unknown driver " := by decide
    exact ((apart.append _).append _).append _
  | time f => cases f <;> decide

/-- No other failure is told as an unknown driver is. -/
theorem OpenFault.message_ne {e : Error} (fault : OpenFault e) (name : String) :
    e.message ≠ (Error.unknownDriver name).message := by
  have told : (Error.unknownDriver name).message = "internal error: unknown driver " ++ name := rfl
  rw [told]
  refine Text.Apart.ne ?_ name
  cases fault with
  | emptySchemaFile => decide
  | rowLimitOutOfRange n =>
    have apart : Text.Apart "internal error: max row size " "internal error: unknown driver " := by decide
    exact ((apart.append _).append _).append _
  | readFailed p f =>
    have apart : Text.Apart "storage error: read failed: " "internal error: unknown driver " := by decide
    exact ((apart.append _).append _).append _
  | undecodable f => exact f.message_apart.prepend "internal error: "
  | invalidTable table f =>
    have apart : Text.Apart "schema error: invalid table " "internal error: unknown driver " := by decide
    exact ((apart.append _).append _).append _

end RowBase
