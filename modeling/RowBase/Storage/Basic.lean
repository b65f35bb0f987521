import RowBase.Error

namespace RowBase

def isUnitName (name : String) : Bool :=
  name ≠ "" && name ≠ "." && name ≠ ".." &&
    name.toList.all fun c => c != '/' && c != '\\' && c.toNat != 0

def checkName (name : String) : Except Error Unit :=
  if isUnitName name then .ok () else .error (.invalidKey name)

/-- The operations of a storage engine. A failed write may leave an engine changed, so a write gives the
engine after it in any case; reads leave an engine as it is. -/
class Storage (σ : Type) where
  write : σ → (space key : String) → Bytes → Except Error Unit × σ
  read : σ → (space key : String) → Except Error (Option Bytes)
  /-- The keys of a namespace in the listing order of the engine; none for a namespace never written. -/
  keys : σ → (space : String) → Except Error (List String)

namespace Storage

variable {σ : Type} [Storage σ]

def unit? (store : σ) (space key : String) : Option (String × Except Error Bytes) :=
  match read store space key with
  | .ok (some bs) => some (key, .ok bs)
  | .ok none => none
  | .error e => some (key, .error e)

/-- Every unit of a namespace, in listing order. Each read fails on its own. -/
def units (store : σ) (space : String) : Except Error (List (String × Except Error Bytes)) :=
  (keys store space).map fun ks => ks.filterMap (unit? store space)

end Storage

end RowBase
