import RowBase.Storage.FileTree

namespace RowBase

structure Disk where
  tree : FileTree
  root : FilePath
  deriving DecidableEq

namespace Disk

def unitPath (d : Disk) (space key : String) : Except Error FilePath := do
  checkName space
  checkName key
  return (d.root.join space).join key

def write (d : Disk) (space key : String) (bs : Bytes) : Except Error Unit × Disk :=
  match d.unitPath space key with
  | .error e => (.error e, d)
  | .ok p => (d.tree.save p bs).map id fun t => { d with tree := t }

def read (d : Disk) (space key : String) : Except Error (Option Bytes) := do
  let p ← d.unitPath space key
  match d.tree.read p with
  | .ok bs => return some bs
  | .error .notFound => return none
  | .error f => throw (.readFailed p.text f)

def keys (d : Disk) (space : String) : Except Error (List String) := do
  checkName space
  match d.tree.files (d.root.join space) with
  | .ok names => return names
  | .error .notFound => return []
  | .error f => throw (.readFailed (d.root.join space).text f)

instance : Storage Disk :=
  ⟨write, read, keys⟩

end Disk

end RowBase
