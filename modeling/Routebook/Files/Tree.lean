import Routebook.Files.Basic

/-!
# A directory tree

A snapshot of the files below a working directory.  Unlike a bundle, a tree
looks at a path step by step: every segment but the last has to lead to a
directory that is there, also when two dots take it back.

Nothing is known about what lies outside the working directory, except that the
way up from it consists of directories.
-/

namespace Routebook

/-- The files below a working directory, by the names that lead to them. -/
structure FileTree where
  files : List (List String × ByteArray) := []

namespace FileTree

/-- A place in or around the tree. -/
inductive Standing
  | directory (names : List String)
  | file (contents : ByteArray)
  | outside

/-- Write a file, replacing one that is there. -/
def write (tree : FileTree) (path : Path) (contents : ByteArray) : FileTree :=
  let names := path.components.filterMap fun component =>
    match component with
    | .name name => some name
    | _ => none
  { files := (names, contents) :: tree.files.filter fun file => file.1 != names }

/-- What a name leads to from a directory of the tree. -/
def enter (tree : FileTree) (names : List String) : Except ReadFault Standing :=
  match tree.files.lookup names with
  | some contents => .ok (.file contents)
  | none =>
    if tree.files.any fun file => names.isPrefixOf file.1 then .ok (.directory names)
    else .error .missing

/-- Go on by one segment of a path. -/
def step (tree : FileTree) (standing : Standing) (segment : String) :
    Except ReadFault Standing :=
  match standing with
  | .file _ => .error .notDirectory
  | .outside =>
    if Path.isIdle segment || segment == ".." then .ok .outside else .error .missing
  | .directory names =>
    if Path.isIdle segment then
      .ok standing
    else if segment == ".." then
      .ok (if names.isEmpty then .outside else .directory names.dropLast)
    else
      tree.enter (names ++ [segment])

/-- The contents of the file at a path. -/
def contents (tree : FileTree) (path : Path) : Except ReadFault ByteArray :=
  if path.text.isEmpty then
    .error .missing
  else do
    let start := if path.isAbsolute then Standing.outside else .directory []
    match ← path.segments.foldlM tree.step start with
    | .file contents => return contents
    | .directory _ | .outside => throw .directory

/-- What stands in the way of reading a path as text. -/
def obstacle (tree : FileTree) (path : Path) : Option ReadFault :=
  match tree.contents path with
  | .error fault => some fault
  | .ok contents => if (String.fromUTF8? contents).isSome then none else some .notText

/-- The texts of the tree as a bundle. -/
def toBundle (tree : FileTree) : Bundle where
  texts := tree.files.filterMap fun (names, contents) =>
    (String.fromUTF8? contents).map fun text => (.relative 0 names, text)
  obstacle := tree.obstacle

end FileTree

end Routebook
