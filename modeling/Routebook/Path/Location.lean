import Routebook.Path.Basic

/-!
# Where a path leads

Read lexically, a path leads from a starting place to a location: a dot stays,
two dots go up by one name, and a name goes down.  At the root, going up stays.
From an unknown starting place, going up without a name to take back is
remembered.

A location is a path in its canonical form.  Files are told apart by location.
-/

namespace Routebook

/-- A location: absolute, or relative to an unknown place that many steps up. -/
inductive Location
  | absolute (names : List String)
  | relative (ups : Nat) (names : List String)
deriving DecidableEq, Repr, Inhabited

namespace Location

/-- Go on from a location by one component. -/
def step : Location → Path.Component → Location
  | _, .root => .absolute []
  | location, .here => location
  | .absolute names, .up => .absolute names.dropLast
  | .relative ups [], .up => .relative (ups + 1) []
  | .relative ups (name :: names), .up => .relative ups (name :: names).dropLast
  | .absolute names, .name name => .absolute (names ++ [name])
  | .relative ups names, .name name => .relative ups (names ++ [name])

/-- Where a path leads from a location.  An absolute path leads there from
anywhere. -/
def follow (location : Location) (path : Path) : Location :=
  path.components.foldl step location

/-- Where a path leads. -/
def ofPath (path : Path) : Location :=
  follow (.relative 0 []) path

/-- Where a path leads that is written in a file of the given directory. -/
def ofReference (directory : Option Path) (path : Path) : Location :=
  match directory with
  | some directory => (ofPath directory).follow path
  | none => ofPath path

/-- The location as it is written. -/
def text : Location → String
  | .absolute names => "/" ++ Text.join '/' names
  | .relative ups names => Text.join '/' (List.replicate ups ".." ++ names)

/-- The path of a location. -/
def toPath (location : Location) : Path :=
  ⟨location.text⟩

end Location

end Routebook
