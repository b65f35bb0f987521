import RowBase.SortedMap
import RowBase.Storage.Basic

namespace RowBase

structure Impaired (σ : Type) where
  store : σ
  /-- Keys that cannot be read in any namespace. -/
  broken : List String
  /-- Keys listed after all others in every namespace, in ascending order. -/
  ghosts : SortedMap String Unit

namespace Impaired

variable {σ : Type} [Storage σ]

instance : Storage (Impaired σ) where
  write s space key bs := (Storage.write s.store space key bs).map id fun store => { s with store }
  read s space key :=
    if key ∈ s.broken then .error (.readFailed (space ++ "/" ++ key) .broken)
    else Storage.read s.store space key
  keys s space := (Storage.keys s.store space).map (· ++ s.ghosts.keys)

end Impaired

end RowBase
