import RowBase.SortedMap
import RowBase.Storage.Basic
import RowBase.Storage.FilePath
import RowBase.Storage.Place

/-!
A tree of files and directories, and how the paths of a Unix file system lead through it. Every path starts at the top
directory, which always exists. So does a relative one: the working directory is taken to stand before the data
directory, and joining is associative. Operations that fail half-way keep what they have made.
-/

namespace RowBase

inductive FileNode
  | file (content : Bytes)
  | directory
  deriving DecidableEq

/-- What lies below the top directory, by the names that lead there. -/
structure FileTree where
  nodes : SortedMap Place FileNode
  deriving DecidableEq

namespace FileTree

def empty : FileTree :=
  ⟨.empty⟩

def node? (t : FileTree) (place : List String) : Option FileNode :=
  if place = [] then some .directory else t.nodes.find? (.ofNames place)

def insert (t : FileTree) (place : List String) (n : FileNode) : FileTree :=
  ⟨t.nodes.insert (.ofNames place) n⟩

def isTooLong (name : String) : Bool :=
  255 < name.utf8ByteSize

def isPathTooLong (p : FilePath) : Bool :=
  4095 < p.text.utf8ByteSize

/-- Goes from a directory to the directory of the given name; `..` leads back, and stays at the top. -/
def enter (t : FileTree) (dir : List String) (name : String) : Except FileFault (List String) :=
  if name = ".." then .ok dir.dropLast
  else if isTooLong name then .error .nameTooLong
  else
    match t.node? (dir ++ [name]) with
    | some .directory => .ok (dir ++ [name])
    | some (.file _) => .error .notDirectory
    | none => .error .notFound

def walk (t : FileTree) (dir : List String) : List String → Except FileFault (List String)
  | [] => .ok dir
  | name :: rest => do
    let next ← t.enter dir name
    t.walk next rest

def lookIn (t : FileTree) (dir : List String) (name : String) :
    Except FileFault (List String × Option FileNode) :=
  if name = ".." then .ok (dir.dropLast, some .directory)
  else if isTooLong name then .error .nameTooLong
  else .ok (dir ++ [name], t.node? (dir ++ [name]))

/-- A path that ends in the name `.` leads to a directory even if no name follows. -/
def endsInDot (p : FilePath) : Bool :=
  (p.pieces.filter (· != "")).getLast? == some "."

def checkPath (p : FilePath) : Except FileFault Unit :=
  if p.text.toList.any (·.toNat == 0) then .error .nulInPath
  else if p.text = "" then .error .notFound
  else if isPathTooLong p then .error .nameTooLong
  else .ok ()

def locate (t : FileTree) (p : FilePath) : Except FileFault (List String × Option FileNode) := do
  checkPath p
  if endsInDot p then return (← t.walk [] p.names, some .directory)
  match p.names.getLast? with
  | none => return ([], some .directory)
  | some name => t.lookIn (← t.walk [] p.names.dropLast) name

def read (t : FileTree) (p : FilePath) : Except FileFault Bytes := do
  match ← t.locate p with
  | (_, some (.file bs)) => if p.endsInSlash then .error .notDirectory else .ok bs
  | (_, some .directory) => .error .isDirectory
  | (_, none) => .error .notFound

def write (t : FileTree) (p : FilePath) (bs : Bytes) : Except FileFault FileTree := do
  checkPath p
  if p.endsInSlash then
    let _ ← t.walk [] (if endsInDot p then p.names else p.names.dropLast)
    throw .isDirectory
  match ← t.locate p with
  | (_, some .directory) => .error .isDirectory
  | (place, _) => .ok (t.insert place (.file bs))

/-- Makes the directories along the names that are missing, one after the other. A file in the way is no
directory to go through; it is said to exist already where a directory is to be made, which is the case for
the last name, and for every name once a directory has been `made`. -/
def makeAlong (t : FileTree) (made : Bool) (dir : List String) :
    List String → Except FileFault Unit × FileTree
  | [] => (.ok (), t)
  | name :: rest =>
    match t.enter dir name with
    | .ok next => t.makeAlong made next rest
    | .error .notFound => (t.insert (dir ++ [name]) .directory).makeAlong true (dir ++ [name]) rest
    | .error .notDirectory => (.error (if made || rest.isEmpty then .exists else .notDirectory), t)
    | .error f => (.error f, t)

/-- Makes the directories that a path ending in the name `.` lies in; the path itself has to exist. -/
def makeAround (t : FileTree) (names : List String) : Except FileFault Unit × FileTree :=
  match t.walk [] names with
  | .ok _ => (.ok (), t)
  | .error .notFound =>
    match t.makeAlong false [] names.dropLast with
    | (.error f, t') => (.error f, t')
    | (.ok (), t') => ((t'.walk [] names).map fun _ => (), t')
  | .error f => (.error f, t)

def makeDirectories (t : FileTree) (p : FilePath) : Except FileFault Unit × FileTree :=
  if p.text = "" then (.ok (), t)
  else
    match checkPath p with
    | .error f => (.error f, t)
    | .ok () => if endsInDot p then t.makeAround p.names else t.makeAlong false [] p.names

/-- Writes a file, making its directory on demand. A failure names the directory if that could not be made,
else the file. -/
def save (t : FileTree) (p : FilePath) (bs : Bytes) : Except Error Unit × FileTree :=
  let finish (t : FileTree) : Except Error Unit × FileTree :=
    match t.write p bs with
    | .ok t' => (.ok (), t')
    | .error f => (.error (.writeFailed p.text f), t)
  match p.parent? with
  | none => finish t
  | some dir =>
    match t.makeDirectories dir with
    | (.ok (), t') => finish t'
    | (.error f, t') => (.error (.writeFailed dir.text f), t')

def load (t : FileTree) (p : FilePath) : Except Error Bytes :=
  match t.read p with
  | .ok bs => .ok bs
  | .error f => .error (.readFailed p.text f)

def fileName? (dir : List String) : Place × FileNode → Option String
  | (place, .file _) => if place.names.dropLast = dir then place.names.getLast? else none
  | (_, .directory) => none

def files (t : FileTree) (p : FilePath) : Except FileFault (List String) := do
  match ← t.locate p with
  | (place, some .directory) => .ok (t.nodes.entries.filterMap (fileName? place))
  | (_, some (.file _)) => .error .notDirectory
  | (_, none) => .error .notFound

end FileTree

end RowBase
