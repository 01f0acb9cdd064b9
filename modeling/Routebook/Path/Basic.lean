import Routebook.Text.Segments

/-!
# Paths as they are written

A path is a text whose segments are separated by slashes.  Empty segments and
dots carry no meaning, except for one dot at the very start, which is kept as a
component of its own.  Paths are compared by their components.
-/

namespace Routebook

/-- A path, as it is written. -/
structure Path where
  text : String
deriving DecidableEq, Repr, Inhabited

namespace Path

/-- A component of a path. -/
inductive Component
  | root
  | here
  | up
  | name (name : String)
deriving DecidableEq, Repr

/-- The segments of the text. -/
def segments (path : Path) : List String :=
  Text.segments '/' path.text

/-- Whether a segment carries no meaning. -/
def isIdle (segment : String) : Bool :=
  segment == "" || segment == "."

/-- The component that a segment stands for. -/
def Component.ofSegment (segment : String) : Component :=
  if segment == ".." then .up else .name segment

/-- Whether the path starts at the root. -/
def isAbsolute (path : Path) : Bool :=
  path.text.toList.head? == some '/'

/-- How a path starts, and the segments behind the start. -/
def body (path : Path) : Option Component × List String :=
  match path.segments with
  | "." :: rest => (some .here, rest)
  | "" :: rest => (if path.isAbsolute then some .root else none, rest)
  | segments => (none, segments)

/-- The components of a path. -/
def components (path : Path) : List Component :=
  let (start, segments) := path.body
  start.toList ++ (segments.filter fun segment => !isIdle segment).map .ofSegment

/-- Whether two paths have the same components. -/
def same (a b : Path) : Bool :=
  a.components == b.components

/-- The segments up to the last one with a meaning. -/
def trimEnd (segments : List String) : List String :=
  (segments.reverse.dropWhile isIdle).reverse

/-- The directory of a path: what is left in front of its last component.  A
path without a component, and the root, have none. -/
def parent? (path : Path) : Option Path :=
  match path.body with
  | (start, segments) =>
    match start, trimEnd (trimEnd segments).dropLast, (trimEnd segments).isEmpty with
    | none, _, true => none
    | some .root, _, true => none
    | some _, _, true => some ⟨""⟩
    | none, rest, false => some ⟨Text.join '/' rest⟩
    | some .root, rest, false => some ⟨"/" ++ Text.join '/' rest⟩
    | some _, rest, false => some ⟨Text.join '/' ("." :: rest)⟩

end Path

end Routebook
