namespace RowBase

inductive FileFault
  | notFound
  | exists
  | notDirectory
  | isDirectory
  | nameTooLong
  | nulInPath
  | broken
  deriving DecidableEq, Repr

def FileFault.message : FileFault → String
  | notFound => "No such file or directory (os error 2)"
  | .exists => "File exists (os error 17)"
  | notDirectory => "Not a directory (os error 20)"
  | isDirectory => "Is a directory (os error 21)"
  | nameTooLong => "File name too long (os error 36)"
  | nulInPath => "file name contained an unexpected NUL byte"
  | broken => "broken"

end RowBase
