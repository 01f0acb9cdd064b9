import Routebook.Assoc
import Routebook.Error
import Routebook.Yaml.Mapping

/-!
# Named fragments

A trait is a mapping under a name, stored to be merged into other mappings.  The
registry keeps the traits in the order in which their names were first defined;
defining a name again replaces its fragment where it stands.
-/

namespace Routebook

/-- Fragments by name, each name once. -/
structure Registry where
  fragments : List (String × Mapping) := []
deriving Inhabited

namespace Registry

/-- The fragment of a name. -/
def get? (registry : Registry) (name : String) : Option Mapping :=
  registry.fragments.lookup name

/-- The names, in order of their first definition. -/
def names (registry : Registry) : List String :=
  registry.fragments.map Prod.fst

/-- The number of fragments. -/
def size (registry : Registry) : Nat :=
  registry.fragments.length

/-- Store a fragment under a name. -/
def insert (registry : Registry) (name : String) (fragment : Mapping) : Registry :=
  ⟨Assoc.put name fragment registry.fragments⟩

/-- Store the body of a definition, which holds the name of the trait among its
entries: the name, and the new registry. -/
def define (registry : Registry) (body : Mapping) : Except TagFault (String × Registry) :=
  match Mapping.get? body Keyword.traitName with
  | some (.string name) =>
    .ok (name, registry.insert name (Mapping.erase body Keyword.traitName))
  | some other => .error (.traitName other.kind)
  | none => .error .traitNameMissing

@[simp] theorem get?_insert_self (registry : Registry) (name : String) (fragment : Mapping) :
    (registry.insert name fragment).get? name = some fragment :=
  Assoc.lookup_put_self ..

theorem get?_insert_of_ne {name other : String} (h : other ≠ name) (registry : Registry)
    (fragment : Mapping) : (registry.insert name fragment).get? other = registry.get? other :=
  Assoc.lookup_put_of_ne h ..

end Registry

end Routebook
