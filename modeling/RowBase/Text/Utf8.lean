namespace RowBase

abbrev Bytes := List UInt8

namespace Text

def utf8 (s : String) : Bytes :=
  s.toByteArray.data.toList

def ofUtf8? (bs : Bytes) : Option String :=
  String.fromUTF8? ⟨bs.toArray⟩

theorem ofUtf8?_utf8 (s : String) : ofUtf8? (utf8 s) = some s := by
  simp [ofUtf8?, utf8, String.fromUTF8?, String.fromUTF8, s.isValidUTF8]

theorem utf8_of_ofUtf8? {bs : Bytes} {s : String} (h : ofUtf8? bs = some s) : utf8 s = bs := by
  simp only [ofUtf8?, String.fromUTF8?, String.fromUTF8, Option.dite_none_right_eq_some, Option.some.injEq] at h
  obtain ⟨_, rfl⟩ := h
  simp [utf8]

def byteLength : List Char → Nat
  | [] => 0
  | c :: cs => c.utf8Size + byteLength cs

/-- Each character with the offset of its first byte. -/
def charOffsets (start : Nat) : List Char → List (Nat × Char)
  | [] => []
  | c :: cs => (start, c) :: charOffsets (start + c.utf8Size) cs

/-- Why bytes are no UTF-8: a sequence that no continuation could mend, with the number of bytes that
belong to it, or the end of the input within a sequence. Both give the index where the sequence starts. -/
inductive Utf8Fault
  | invalid (length index : Nat)
  | incomplete (index : Nat)
  deriving DecidableEq, Repr

def Utf8Fault.message : Utf8Fault → String
  | .invalid n i => s!"invalid utf-8 sequence of {n} bytes from index {i}"
  | .incomplete i => s!"incomplete utf-8 byte sequence from index {i}"

def isContinuation (b : UInt8) : Bool :=
  0x80 ≤ b && b ≤ 0xBF

/-- The length of the sequence that starts with this byte, and the range of its second byte: narrower after
some first bytes, to shut out overlong forms, surrogates and numbers above U+10FFFF. -/
def utf8Lead (b : UInt8) : Option (Nat × UInt8 × UInt8) :=
  if 0xC2 ≤ b && b ≤ 0xDF then some (2, 0x80, 0xBF)
  else if b == 0xE0 then some (3, 0xA0, 0xBF)
  else if b == 0xED then some (3, 0x80, 0x9F)
  else if 0xE1 ≤ b && b ≤ 0xEF then some (3, 0x80, 0xBF)
  else if b == 0xF0 then some (4, 0x90, 0xBF)
  else if 0xF1 ≤ b && b ≤ 0xF3 then some (4, 0x80, 0xBF)
  else if b == 0xF4 then some (4, 0x80, 0x8F)
  else none

def continuations (done : Nat) : (missing : Nat) → Bytes → Except (Option Nat) Bytes
  | 0, rest => .ok rest
  | _ + 1, [] => .error none
  | n + 1, b :: rest => if isContinuation b then continuations (done + 1) n rest else .error (some done)

/-- Reads one sequence: the bytes after it, or the length of the invalid sequence, or nothing where the
input ends too early. -/
def sequence (b : UInt8) (rest : Bytes) : Except (Option Nat) Bytes :=
  if b < 0x80 then .ok rest
  else
    match utf8Lead b, rest with
    | none, _ => .error (some 1)
    | some _, [] => .error none
    | some (n, lo, hi), c :: rest =>
      if lo ≤ c && c ≤ hi then continuations 2 (n - 2) rest else .error (some 1)

/-- The first fault of bytes that are no UTF-8, looking at one sequence after the other. The count of steps
bounds the number of sequences. -/
def utf8FaultFrom : (steps index : Nat) → Bytes → Utf8Fault
  | 0, i, _ => .incomplete i
  | _, i, [] => .incomplete i
  | n + 1, i, b :: rest =>
    match sequence b rest with
    | .ok after => utf8FaultFrom n (i + (rest.length + 1 - after.length)) after
    | .error (some k) => .invalid k i
    | .error none => .incomplete i

def utf8Fault (bs : Bytes) : Utf8Fault :=
  utf8FaultFrom bs.length 0 bs

end Text

end RowBase
