/-!
Paths: names that are separated by slashes. A path is read as its parts, among which empty names and
dots count for nothing, except for a dot that the path begins with.
-/

namespace SealedCatalog.Path

inductive Part where
  | root
  /-- The directory that paths start from, written as a dot. -/
  | current
  | parent
  | name (name : String)
deriving DecidableEq, Repr

/-- What a path begins with, if that is no name: a slash, or a dot. -/
def leading (path : List Char) : List Part :=
  if path.head? = some '/' then [.root]
  else if (path.splitOn '/').head? = some ['.'] then [.current]
  else []

/-- The part that the text between two slashes stands for. -/
def part? (piece : List Char) : Option Part :=
  if piece = [] || piece = ['.'] then none
  else if piece = ['.', '.'] then some .parent
  else some (.name (String.ofList piece))

def parts (path : String) : List Part :=
  leading path.toList ++ (path.toList.splitOn '/').filterMap part?

/-- The last part of a path, if it is a name. -/
def fileName? (path : String) : Option String :=
  match (parts path).getLast? with
  | some (.name name) => some name
  | _ => none

/-- A path taken from a directory. One that begins at the root stays as it is. -/
def join (directory path : String) : String :=
  if path.toList.head? = some '/' then path
  else if directory = "" || directory.toList.getLast? = some '/' then directory ++ path
  else directory ++ "/" ++ path

end SealedCatalog.Path
