import Routebook.Text.Segments

/-!
# Places in a document

A scope is the trail of names that leads from the root of a document to an
entity.  Messages show it as the names with slashes between them.
-/

namespace Routebook

/-- The names from the root to a place, last one first. -/
structure Scope where
  trail : List String := []
deriving DecidableEq, Repr, Inhabited

namespace Scope

/-- The root of a document. -/
def root : Scope := {}

/-- The place under a name. -/
def child (scope : Scope) (name : String) : Scope :=
  ⟨name :: scope.trail⟩

/-- The place below the root that the names lead to. -/
def ofNames (names : List String) : Scope :=
  ⟨names.reverse⟩

/-- The scope as messages show it. -/
def text (scope : Scope) : String :=
  if scope.trail.isEmpty then "<root>" else Text.join '/' scope.trail.reverse

end Scope

end Routebook
