namespace Decaf.CommandLine

inductive ReadError where
  | notFound
  | notADirectory
  | isADirectory
  | nameTooLong
  | notText
  | other (reason : String)
deriving DecidableEq

def ReadError.reason : ReadError → String
  | .notFound => "No such file or directory (os error 2)"
  | .notADirectory => "Not a directory (os error 20)"
  | .isADirectory => "Is a directory (os error 21)"
  | .nameTooLong => "File name too long (os error 36)"
  | .notText => "stream did not contain valid UTF-8"
  | .other reason => reason

/-- Files and empty directories by their names, in which slashes divide the parts of a path. -/
structure Directory where
  files : List (String × ByteArray)
  subdirectories : List String

namespace Directory

/-- Where a path has led to: to a directory inside by the names on the way up, out of the working
directory, or to a file. -/
inductive Position where
  | inside (names : List String)
  | outside
  | file (content : ByteArray)

def hasDirectory (d : Directory) (name : String) : Bool :=
  name ∈ d.subdirectories || (d.files.map Prod.fst ++ d.subdirectories).any fun other =>
    (name ++ "/").toList.isPrefixOf other.toList

def longestName : Nat := 255

def longestPath : Nat := 4095

def step (d : Directory) : Position → String → Except ReadError Position
  | .file _, _ => .error .notADirectory
  | position, "" | position, "." => .ok position
  | .inside [], ".." | .outside, ".." => .ok .outside
  | .inside (_ :: names), ".." => .ok (.inside names)
  | .outside, name => .error (if longestName < name.utf8ByteSize then .nameTooLong else .notFound)
  | .inside names, name =>
    let path := String.intercalate "/" (name :: names).reverse
    if longestName < name.utf8ByteSize then .error .nameTooLong
    else
      match d.files.lookup path with
      | some content => .ok (.file content)
      | none => if d.hasDirectory path then .ok (.inside (name :: names)) else .error .notFound

def read (d : Directory) (path : String) : Except ReadError ByteArray := do
  let start : Position := if path.toList.head? = some '/' then .outside else .inside []
  if longestPath < path.utf8ByteSize then throw .nameTooLong
  match ← (path.splitOn "/").foldlM d.step start with
  | .file content => .ok content
  | .inside _ | .outside => .error .isADirectory

end Directory

end Decaf.CommandLine
