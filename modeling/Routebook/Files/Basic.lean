import Routebook.Assoc
import Routebook.Path.Location

/-!
# Files that can be read

A bundle of files is a finite collection of texts, each at a location.  Besides
the texts a bundle may know paths that cannot be read although something is
there, such as directories; every other path without a text is reported
missing.

A text can be taken out of a bundle.  What is left has one text less, which is
why including files from within files comes to an end.
-/

namespace Routebook

/-- Why a file cannot be read. -/
inductive ReadFault
  /-- A bundle has no file at the path. -/
  | notBundled (path : Path)
  /-- A directory tree has nothing at the path. -/
  | missing
  /-- The path leads to a directory. -/
  | directory
  /-- The path goes through a file as if it was a directory. -/
  | notDirectory
  /-- The file does not hold text. -/
  | notText
deriving DecidableEq, Repr

namespace ReadFault

/-- The wording of a fault. -/
def message : ReadFault → String
  | .notBundled path => path.text ++ " not found"
  | .missing => "No such file or directory (os error 2)"
  | .directory => "Is a directory (os error 21)"
  | .notDirectory => "Not a directory (os error 20)"
  | .notText => "stream did not contain valid UTF-8"

end ReadFault

/-- A finite collection of files. -/
structure Bundle where
  /-- The texts, each location once, in the order of insertion. -/
  texts : List (Location × String) := []
  /-- What stands in the way of reading a path, if anything does. -/
  obstacle : Path → Option ReadFault := fun _ => none

instance : Inhabited Bundle := ⟨{}⟩

namespace Bundle

/-- The number of files. -/
def size (bundle : Bundle) : Nat :=
  bundle.texts.length

/-- Add a file, replacing one at the same location. -/
def insert (bundle : Bundle) (path : Path) (text : String) : Bundle :=
  { bundle with texts := Assoc.put (.ofPath path) text bundle.texts }

/-- The bundle of the given files, a later one replacing an earlier one at the
same location. -/
def ofFiles (files : List (Path × String)) : Bundle :=
  files.foldl (fun bundle file => bundle.insert file.1 file.2) {}

/-- Read a file. -/
def read (bundle : Bundle) (path : Path) : Except ReadFault String :=
  match bundle.obstacle path with
  | some fault => .error fault
  | none =>
    match bundle.texts.lookup (.ofPath path) with
    | some text => .ok text
    | none => .error (.notBundled path)

/-- The bundle without the file at a location. -/
def without (bundle : Bundle) (location : Location) : Bundle :=
  { bundle with texts := bundle.texts.filter fun file => file.1 ≠ location }

/-- The locations of the files. -/
def locations (bundle : Bundle) : List Location :=
  bundle.texts.map Prod.fst

@[simp] theorem length_locations (bundle : Bundle) : bundle.locations.length = bundle.size :=
  List.length_map _

theorem lookup_of_read {bundle : Bundle} {path : Path} {text : String}
    (h : bundle.read path = .ok text) : bundle.texts.lookup (.ofPath path) = some text := by
  rw [read] at h
  split at h
  · cases h
  · split at h
    · cases h
      assumption
    · cases h

/-- A file that can be read is one of the bundle. -/
theorem mem_locations_of_read {bundle : Bundle} {path : Path} {text : String}
    (h : bundle.read path = .ok text) : .ofPath path ∈ bundle.locations := by
  rw [locations, Assoc.mem_map_fst_iff, lookup_of_read h]
  rfl

theorem locations_without (bundle : Bundle) (location : Location) :
    (bundle.without location).locations = bundle.locations.filter (· ≠ location) := by
  rw [locations, locations, List.filter_map]
  rfl

/-- A bundle becomes smaller when a file that can be read is taken out. -/
theorem size_without_lt {bundle : Bundle} {path : Path} {text : String}
    (h : bundle.read path = .ok text) :
    (bundle.without (.ofPath path)).size < bundle.size := by
  rw [← length_locations, ← length_locations, locations_without,
    List.length_filter_lt_length_iff_exists]
  exact ⟨.ofPath path, mem_locations_of_read h, by simp⟩

end Bundle

end Routebook
