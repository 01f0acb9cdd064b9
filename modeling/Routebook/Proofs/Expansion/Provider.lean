import Routebook.Proofs.Expansion.Session

/-!
# How schemas are come by

Expansion takes a schema from those that have been built, and builds one if there
is none.  Here the way to come by a schema is a parameter of expansion.  With the
library's own way this is the library's expansion.
-/

namespace Routebook

/-- A way to come by the schema for a directory. -/
abbrev Provider := Option Path → Expansion Schema

/-- Build a schema whenever one is asked for, and keep none. -/
def Provider.fresh : Provider := fun directory =>
  return ⟨directory⟩

section Provided

variable (provider : Provider)

/-- Expand the text of the file at a location. -/
def expandTextWith (resolver : Resolver) (location : Location) (text : String) :
    Expansion (Option Value) := do
  let value ← readText text
  let schema ← provider location.toPath.parent?
  expand resolver schema value

/-- Resolve a reference by the files of a bundle. -/
def resolveWith (bundle : Bundle) (reference : Reference) : Expansion (Option Value) :=
  includeOnce reference (bundle.read reference.location.toPath) fun text _found =>
    expandTextWith provider (resolveWith (bundle.without (.ofPath reference.location.toPath)))
      reference.location text
termination_by bundle.size
decreasing_by exact Bundle.size_without_lt _found

/-- Expand a value by the files of a bundle, as one of a file in the given
directory. -/
def expandInWith (bundle : Bundle) (directory : Option Path) (value : Value) :
    Expansion (Option Value) := do
  let schema ← provider directory
  expand (resolveWith provider bundle) schema value

/-- Take the expanded root of a document as a mapping. -/
def rootEntries (root : Option Value) : Expansion Mapping :=
  match root with
  | none | some .null => return []
  | some (.mapping entries) => return entries
  | some other => throw (.documentRoot other.kind)

/-- Expand the root of a document. -/
def expandRootWith (bundle : Bundle) (root : Value) : Expansion Mapping := do
  let context ← get
  let root ← expandInWith provider bundle context.configDir root
  rootEntries root

end Provided

/-! ## The library's own way -/

theorem resolveWith_obtainSchema (bundle : Bundle) :
    resolveWith Expansion.obtainSchema bundle = resolve bundle := by
  induction hsize : bundle.size using Nat.strongRecOn generalizing bundle with
  | ind size ih =>
    subst hsize
    funext reference
    rw [resolveWith, resolve]
    congr 1
    funext text hread
    rw [ih _ (Bundle.size_without_lt hread) _ rfl]
    rfl

theorem expandInWith_obtainSchema (bundle : Bundle) (directory : Option Path) (value : Value) :
    expandInWith Expansion.obtainSchema bundle directory value =
      expandIn bundle directory value := by
  rw [expandInWith, resolveWith_obtainSchema]
  rfl

theorem expandRootWith_obtainSchema (bundle : Bundle) (root : Value) :
    expandRootWith Expansion.obtainSchema bundle root = expandRoot bundle root := by
  rw [expandRootWith, expandRoot]
  simp only [expandInWith_obtainSchema]
  rfl

end Routebook
