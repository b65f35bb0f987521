/-!
Paths of a Unix file system, as texts: names between slashes, and a slash in front of an absolute path. There are no
drives, and a backslash or a colon is a character like any other. Joining, taking the parent and resolving look at the
names only; the text is kept for messages.
-/

namespace RowBase

structure FilePath where
  text : String
  deriving DecidableEq, Repr

namespace FilePath

def split : List Char → List (List Char)
  | [] => [[]]
  | c :: cs =>
    match split cs with
    | [] => [[c]]
    | piece :: rest => if c = '/' then [] :: piece :: rest else (c :: piece) :: rest

def pieces (p : FilePath) : List String :=
  (split p.text.toList).map .ofList

def isSkipped (piece : String) : Bool :=
  piece == "" || piece == "."

def names (p : FilePath) : List String :=
  p.pieces.filter (!isSkipped ·)

def isAbsolute (p : FilePath) : Bool :=
  p.text.toList.head? == some '/'

def endsInSlash (p : FilePath) : Bool :=
  p.text.toList.getLast? == some '/'

/-- The path of `name` seen from a directory: an absolute one replaces it, any other is put behind it. -/
def join (p : FilePath) (name : String) : FilePath :=
  if (⟨name⟩ : FilePath).isAbsolute || p.text == "" then ⟨name⟩
  else if p.endsInSlash then ⟨p.text ++ name⟩
  else ⟨p.text ++ "/" ++ name⟩

def dropSkipped (pieces : List String) : List String :=
  (pieces.reverse.dropWhile isSkipped).reverse

/-- The path without its last name, if it has one. The parent of a single name is the empty path, which
means the current directory. -/
def parent? (p : FilePath) : Option FilePath :=
  let text (pieces : List String) : FilePath := ⟨"/".intercalate pieces⟩
  let kept := dropSkipped p.pieces
  let above := dropSkipped kept.dropLast
  if p.isAbsolute then
    if kept = [] then none
    else if above = [] then some ⟨"/"⟩
    else some (text above)
  else if kept = [] then
    if p.pieces.head? = some "." then some ⟨""⟩ else none
  else if above = [] then
    if kept.length = 1 then some ⟨""⟩ else some ⟨"."⟩
  else some (text above)

end FilePath

end RowBase
