import RowBase.Config
import RowBase.RowStore
import RowBase.Storage.Disk

namespace RowBase

structure OpenDatabase where
  rows : RowStore
  root : FilePath

namespace OpenDatabase

def disk (db : OpenDatabase) (t : FileTree) : Disk :=
  ⟨t, db.root⟩

end OpenDatabase

def Config.openDatabase (c : Config) (t : FileTree) : Except Error OpenDatabase := do
  c.validate
  let schema ← Database.load c t
  return ⟨(RowStore.ofSchema schema).withLimit c.maxRowSize.toNat, c.dataDir⟩

structure Registry where
  configs : SortedMap String Config

namespace Registry

def empty : Registry :=
  ⟨.empty⟩

def register (r : Registry) (name : String) (c : Config) : Except Error Registry :=
  match r.configs.find? name with
  | some _ => .error (.driverRegistered name)
  | none => .ok ⟨r.configs.insert name c⟩

def drivers (r : Registry) : List String :=
  r.configs.keys

def openDatabase (r : Registry) (name : String) (dir : FilePath) (t : FileTree) : Except Error OpenDatabase :=
  match r.configs.find? name with
  | none => .error (.unknownDriver name)
  | some c => { c with dataDir := dir }.openDatabase t

end Registry

end RowBase
