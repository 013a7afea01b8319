import SealedCatalog.Dict
import SealedCatalog.Inquiry

/-!
Files in directories, below a root that is always there. A path that begins with a slash starts at
the root, any other at the directory in which the program runs.
-/

namespace SealedCatalog

inductive FileNode where
  | file (content : Bytes)
  | directory
deriving DecidableEq, Inhabited, Repr

inductive Place where
  | file (key : String) (content : Bytes)
  | directory
  /-- Nothing yet, in a directory that is there. -/
  | free (key : String)
  | nowhere (fault : FileFault)
deriving DecidableEq, Inhabited, Repr

/-- The nodes of a tree under their paths from the root, of which the names are separated by single
slashes. -/
structure FileTree where
  nodes : Dict FileNode
  /-- The names that lead to the directory in which the program runs, the last name first. -/
  base : List String
deriving DecidableEq, Inhabited

namespace FileTree

/-- A root without files, in which the program runs. -/
def empty : FileTree := ⟨Dict.empty, []⟩

/-- The key of the node that the given names lead to, the last name first. -/
def key (names : List String) : String :=
  "/".intercalate names.reverse

def longestName : Nat := 255

/-- Follow the names of a path from the directory that `above` leads to, the last name of it first.
What is above the root is the root. -/
def follow (tree : FileTree) (above : List String) : List String → Place
  | [] => .directory
  | name :: rest =>
      if name = "" || name = "." then tree.follow above rest
      else if name = ".." then tree.follow above.tail rest
      else if longestName < name.utf8ByteSize then .nowhere .nameTooLong
      else
        match tree.nodes.get? (key (name :: above)) with
        | some .directory => tree.follow (name :: above) rest
        | some (.file content) =>
            if rest.isEmpty then .file (key (name :: above)) content
            else .nowhere .notDirectory
        | none => if rest.isEmpty then .free (key (name :: above)) else .nowhere .notFound

def names (path : String) : List String :=
  path.splitOn "/"

/-- The names that lead to the directory from which a path starts. -/
def start (tree : FileTree) (path : String) : List String :=
  if path.startsWith "/" then [] else tree.base

def place (tree : FileTree) (path : String) : Place :=
  if path.contains '\x00' then .nowhere .badPath
  else if path = "" then .nowhere .notFound
  else tree.follow (tree.start path) (names path)

def content (tree : FileTree) (path : String) : Except FileFault Bytes :=
  match tree.place path with
  | .file _ found => .ok found
  | .directory => .error .isDirectory
  | .free _ => .error .notFound
  | .nowhere fault => .error fault

/-- Whether something stands at a path. It is an error if a file stands in the way. -/
def present (tree : FileTree) (path : String) : Except FileFault Bool :=
  match tree.place path with
  | .file _ _ => .ok true
  | .directory => .ok true
  | .free _ => .ok false
  | .nowhere .notFound => .ok false
  | .nowhere fault => .error fault

def view (tree : FileTree) : FileView := ⟨tree.content, tree.present⟩

def put (tree : FileTree) (key : String) (node : FileNode) : FileTree :=
  { tree with nodes := tree.nodes.insert key node }

def write (tree : FileTree) (path : String) (content : Bytes) : Except FileFault FileTree :=
  match tree.place path with
  | .file key _ => .ok (tree.put key (.file content))
  | .free key => .ok (tree.put key (.file content))
  | .directory => .error .isDirectory
  | .nowhere fault => .error fault

/-- Make the directories that the given names lead through, unless they are there. -/
def withDirectories (tree : FileTree) (above : List String) : List String → FileTree
  | [] => tree
  | name :: rest =>
      if name = "" || name = "." then tree.withDirectories above rest
      else if name = ".." then tree.withDirectories above.tail rest
      else
        let here := key (name :: above)
        let grown := if tree.nodes.contains here then tree else tree.put here .directory
        grown.withDirectories (name :: above) rest

/-- A tree without files, whose program runs in the directory that the names lead to. -/
def within (names : List String) : FileTree :=
  { empty.withDirectories [] names with base := names.reverse }

def writeMaking (tree : FileTree) (path : String) (content : Bytes) : Except FileFault FileTree :=
  (tree.withDirectories (tree.start path) (names path).dropLast).write path content

/-- What stands in the directory in which the program runs. -/
def topNames (tree : FileTree) : List String :=
  tree.nodes.keys.filterMap fun path =>
    match (names path).reverse with
    | [] => none
    | name :: above => if above = tree.base then some name else none

/-- The content of the file of a name in a directory or, if it has none, in the nearest one around
it. -/
def nearest? (tree : FileTree) (name : String) (above : List String) : Option Bytes :=
  match tree.nodes.get? (key (name :: above)), above with
  | some (.file content), _ => some content
  | _, [] => none
  | _, _ :: outer => tree.nearest? name outer

end FileTree

end SealedCatalog
