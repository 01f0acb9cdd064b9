import Mathlib.Data.List.DropRight
import Routebook.Proofs.Path.Canonical

/-!
# Normal forms of paths

What a path means is the place it leads to from each directory.  The path of the
location that it leads to means the same, has no component that could be left out, and
is the same text for all paths with this meaning: it is the normal form of the path.

A meaning has only one location because any two are told apart by some directory.  The
directory has to be deep enough that going up does not end at the root, and its names
have to differ from those that one of the locations goes down by.
-/

namespace Routebook

namespace Path

/-! ## Going on with another path -/

/-- A path that goes on with another one.  An absolute path starts anew. -/
def join (path other : Path) : Path :=
  if other.isAbsolute then other
  else
    match path.text.toList.getLast? with
    | none | some '/' => ⟨path.text ++ other.text⟩
    | some _ => ⟨path.text ++ "/" ++ other.text⟩

/-- The components of a path, but for the one that it may start with. -/
def moves (path : Path) : List Component :=
  (path.segments.filter fun segment => !isIdle segment).map .ofSegment

theorem components_of_absolute {path : Path} (h : path.isAbsolute) :
    path.components = .root :: path.moves := by
  obtain ⟨text⟩ := path
  obtain ⟨rest, hrest⟩ : ∃ rest, text.toList = '/' :: rest := by
    simpa [isAbsolute, List.head?_eq_some_iff] using h
  obtain rfl : text = "/" ++ .ofList rest := by
    rw [← String.toList_inj, hrest]
    simp
  rw [components_slash, moves, segments_slash]
  rfl

theorem components_of_relative {path : Path} (h : path.isAbsolute = false) :
    path.components = path.moves ∨ path.components = .here :: path.moves := by
  rw [components, moves]
  rcases hbody : path.body with ⟨start, behind⟩
  rw [body, h] at hbody
  split at hbody
  · rename_i hsegments
    cases hbody
    exact .inr (by rw [hsegments]; rfl)
  · rename_i hsegments
    cases hbody
    exact .inl (by rw [hsegments]; rfl)
  · cases hbody
    exact .inl rfl

theorem moves_slash (text rest : String) :
    (⟨text ++ "/" ++ rest⟩ : Path).moves = (⟨text⟩ : Path).moves ++ (⟨rest⟩ : Path).moves := by
  have hsegments : (⟨text ++ "/" ++ rest⟩ : Path).segments =
      (⟨text⟩ : Path).segments ++ (⟨rest⟩ : Path).segments := by
    have hchars : (text ++ "/" ++ rest).toList = text.toList ++ '/' :: rest.toList := by
      rw [String.append_assoc, String.toList_append, String.toList_append]
      rfl
    simp only [segments, Text.segments, hchars, Text.cut_eq_splitOn,
      List.splitOn_append_cons_self, List.map_append]
  rw [moves, hsegments, List.filter_append, List.map_append]
  rfl

theorem isAbsolute_append {text : String} (h : text ≠ "") (rest : String) :
    (⟨text ++ rest⟩ : Path).isAbsolute = (⟨text⟩ : Path).isAbsolute := by
  have hchars : text.toList ≠ [] := by simpa using h
  rw [isAbsolute, isAbsolute, String.toList_append, List.head?_append_of_ne_nil _ hchars]

/-- Where two paths are joined, there is one slash more than in the texts unless one is
there already or the first text is empty. -/
theorem join_cases (path : Path) {other : Path} (h : other.isAbsolute = false) :
    (path.text = "" ∧ path.join other = other) ∨
      path.text ≠ "" ∧
        ((∃ before, path.text = before ++ "/" ∧ path.join other = ⟨before ++ "/" ++ other.text⟩) ∨
          path.join other = ⟨path.text ++ "/" ++ other.text⟩) := by
  rw [join, h, if_neg Bool.false_ne_true]
  split
  · rename_i hlast
    have hempty : path.text = "" := by simpa using hlast
    exact .inl ⟨hempty, by rw [hempty, String.empty_append]⟩
  · rename_i hlast
    obtain ⟨before, hbefore⟩ := List.getLast?_eq_some_iff.1 hlast
    have htext : path.text = .ofList before ++ "/" := by
      rw [← String.toList_inj, hbefore]
      simp
    exact .inr ⟨by simp [htext], .inl ⟨.ofList before, htext, by rw [htext]⟩⟩
  · rename_i last hlast
    refine .inr ⟨?_, .inr rfl⟩
    intro hempty
    simp [hempty] at hlast

theorem moves_join (path : Path) {other : Path} (h : other.isAbsolute = false) :
    (path.join other).moves = path.moves ++ other.moves := by
  obtain ⟨text⟩ := path
  obtain ⟨rfl, hjoin⟩ | ⟨-, ⟨before, rfl, hjoin⟩ | hjoin⟩ := join_cases ⟨text⟩ h
  · rw [hjoin]
    rfl
  · have hbefore := moves_slash before ""
    rw [String.append_empty] at hbefore
    rw [hjoin, moves_slash, hbefore, List.append_assoc]
    rfl
  · rw [hjoin, moves_slash]

theorem isAbsolute_join (path : Path) {other : Path} (h : other.isAbsolute = false) :
    (path.join other).isAbsolute = path.isAbsolute := by
  obtain ⟨text⟩ := path
  obtain ⟨rfl, hjoin⟩ | ⟨hne, ⟨before, rfl, hjoin⟩ | hjoin⟩ := join_cases ⟨text⟩ h
  · rw [hjoin, h]
    rfl
  · rw [hjoin, isAbsolute_append hne]
  · rw [hjoin, String.append_assoc, isAbsolute_append hne]

end Path

namespace Location

/-- A path leads on by its moves, from the root if it is absolute. -/
theorem follow_eq_foldl_moves (location : Location) (path : Path) :
    location.follow path =
      path.moves.foldl step (if path.isAbsolute then .absolute [] else location) := by
  rw [follow]
  cases habsolute : path.isAbsolute with
  | true =>
    rw [Path.components_of_absolute habsolute]
    rfl
  | false =>
    rcases Path.components_of_relative habsolute with h | h
    all_goals
      rw [h]
      rfl

/-- A joined path leads on from where the first one leads. -/
theorem follow_join (location : Location) (path other : Path) :
    location.follow (path.join other) = (location.follow path).follow other := by
  cases habsolute : other.isAbsolute with
  | true =>
    rw [Path.join, habsolute, if_pos rfl]
    rw [follow_eq_foldl_moves, follow_eq_foldl_moves (follow _ _), habsolute]
    rfl
  | false =>
    rw [follow_eq_foldl_moves, Path.moves_join path habsolute, Path.isAbsolute_join path habsolute,
      List.foldl_append, ← follow_eq_foldl_moves, follow_eq_foldl_moves (follow _ _), habsolute]
    rfl

/-- References lead to where the directory and the path of the reference lead joined. -/
theorem ofReference_some (directory path : Path) :
    ofReference (some directory) path = ofPath (directory.join path) :=
  (follow_join _ directory path).symm

end Location

/-! ## Places -/

namespace Path

/-- Move by one component from a directory, given by the names on the way to it from
the root. -/
def Component.move : List String → Component → List String
  | _, .root => []
  | names, .here => names
  | names, .up => names.dropLast
  | names, .name next => names ++ [next]

/-- The place that a path leads to from a directory, both given by the names on the way
from the root. -/
def resolve (path : Path) (directory : List String) : List String :=
  path.components.foldl Component.move directory

end Path

namespace Location

/-- The names on the way from the root to a location, if the unknown starting place is
the given directory. -/
def namesFrom (directory : List String) : Location → List String
  | .absolute names => names
  | .relative ups names => directory.rdrop ups ++ names

theorem dropLast_rdrop (directory : List String) (ups : Nat) :
    (directory.rdrop ups).dropLast = directory.rdrop (ups + 1) := by
  rw [List.rdrop, List.rdrop, List.dropLast_eq_take, List.take_take, List.length_take]
  congr 1
  omega

theorem namesFrom_step (directory : List String) (location : Location)
    (component : Path.Component) :
    (location.step component).namesFrom directory =
      component.move (location.namesFrom directory) := by
  cases component with
  | root => rfl
  | here => rfl
  | up =>
    rcases location with names | ⟨ups, _ | ⟨name, names⟩⟩
    · rfl
    · rw [step, namesFrom, namesFrom, List.append_nil, List.append_nil, Path.Component.move,
        dropLast_rdrop]
    · rw [step, namesFrom, namesFrom, Path.Component.move,
        List.dropLast_append_of_ne_nil (List.cons_ne_nil name names)]
  | name name =>
    cases location with
    | absolute names => rfl
    | relative ups names => exact (List.append_assoc _ names [name]).symm

theorem resolve_eq_namesFrom (path : Path) (directory : List String) :
    path.resolve directory = (ofPath path).namesFrom directory := by
  have hfold : ∀ (components : List Path.Component) (location : Location),
      (components.foldl step location).namesFrom directory =
        components.foldl Path.Component.move (location.namesFrom directory) := by
    intro components
    induction components with
    | nil => exact fun location => rfl
    | cons component rest ih =>
      intro location
      rw [List.foldl_cons, List.foldl_cons, ih, namesFrom_step]
  rw [ofPath, follow, hfold, Path.resolve, namesFrom, List.rdrop_zero, List.append_nil]

/-! ## Locations are told apart -/

theorem namesFrom_replicate (ups further : Nat) (name : String) (names : List String) :
    (relative ups names).namesFrom (List.replicate (ups + further) name) =
      List.replicate further name ++ names := by
  simp [namesFrom, List.rdrop]

theorem properName_a : Path.ProperName "a" := by
  refine ⟨?_, ?_, ?_, ?_⟩ <;> decide

theorem properName_b : Path.ProperName "b" := by
  refine ⟨?_, ?_, ?_, ?_⟩ <;> decide

section Apart

variable {ups further : Nat} {names others : List String}

/-- A directory that is deep enough tells an absolute location from a relative one. -/
theorem exists_namesFrom_ne (ups : Nat) (names others : List String) :
    ∃ directory : List String, (∀ name ∈ directory, Path.ProperName name) ∧
      (absolute names).namesFrom directory ≠ (relative ups others).namesFrom directory := by
  refine ⟨List.replicate (ups + (names.length + 1)) "a", ?_, fun h => ?_⟩
  · intro name hname
    exact List.eq_of_mem_replicate hname ▸ properName_a
  · rw [namesFrom_replicate] at h
    have hlength := congrArg List.length h
    simp [namesFrom] at hlength
    omega

/-- Going up further than another location is told from it by the names that stay. -/
theorem eq_of_namesFrom_eq_of_le
    (h : ∀ directory : List String, (∀ name ∈ directory, Path.ProperName name) →
      (relative ups names).namesFrom directory =
        (relative (ups + further) others).namesFrom directory) :
    further = 0 ∧ names = others := by
  have hname : ∀ name, Path.ProperName name → List.replicate further name ++ names = others := by
    intro name hname
    have hsame := h (List.replicate (ups + further) name) fun other hother =>
      List.eq_of_mem_replicate hother ▸ hname
    rw [namesFrom_replicate] at hsame
    simpa [namesFrom, List.rdrop] using hsame
  have ha := hname "a" properName_a
  cases further with
  | zero => exact ⟨rfl, ha⟩
  | succ further =>
    have hb := hname "b" properName_b
    rw [← hb] at ha
    exact absurd (List.cons.inj ha).1 (by decide)

end Apart

/-- Locations that are the same place for each directory are the same. -/
theorem eq_of_namesFrom_eq {location other : Location}
    (h : ∀ directory : List String, (∀ name ∈ directory, Path.ProperName name) →
      location.namesFrom directory = other.namesFrom directory) :
    location = other := by
  rcases location with names | ⟨ups, names⟩ <;> rcases other with others | ⟨ups', others⟩
  · exact congrArg absolute (h [] (by simp))
  · obtain ⟨directory, hproper, hne⟩ := exists_namesFrom_ne ups' names others
    exact absurd (h directory hproper) hne
  · obtain ⟨directory, hproper, hne⟩ := exists_namesFrom_ne ups others names
    exact absurd (h directory hproper).symm hne
  · rcases Nat.le_total ups ups' with hle | hle
    · obtain ⟨further, rfl⟩ := Nat.exists_eq_add_of_le hle
      obtain ⟨rfl, rfl⟩ := eq_of_namesFrom_eq_of_le h
      rfl
    · obtain ⟨further, rfl⟩ := Nat.exists_eq_add_of_le hle
      obtain ⟨rfl, rfl⟩ := eq_of_namesFrom_eq_of_le fun directory hdirectory =>
        (h directory hdirectory).symm
      rfl

end Location

/-! ## Normal forms -/

namespace Path

/-- The path of the location that a path leads to. -/
def normal (path : Path) : Path :=
  (Location.ofPath path).toPath

/-- Whether a path is either absolute, with names only behind the root, or relative, with
all its steps up in front of the names. -/
def IsNormal (path : Path) : Prop :=
  (∃ names : List String, path.components = .root :: names.map .name) ∨
    ∃ (ups : Nat) (names : List String),
      path.components = List.replicate ups .up ++ names.map .name

/-- What it means that a function gives paths a canonical form for where they lead. -/
structure CanonicalForm (form : Path → Path) : Prop where
  resolve_form : ∀ path directory, (form path).resolve directory = path.resolve directory
  isNormal_form : ∀ path, (form path).IsNormal
  /-- Paths that lead to the same places have one form. -/
  form_eq_iff : ∀ path other, form path = form other ↔
    ∀ directory : List String, (∀ name ∈ directory, ProperName name) →
      path.resolve directory = other.resolve directory
  /-- Forms with the same components are the same text. -/
  same_iff : ∀ path other, (form path).same (form other) ↔ form path = form other
  form_form : ∀ path, form (form path) = form path
  form_join : ∀ path other, form (path.join other) = form ((form path).join other)

theorem ofPath_normal (path : Path) : Location.ofPath path.normal = .ofPath path :=
  Location.ofPath_toPath (Location.proper_ofPath path)

theorem resolve_normal (path : Path) (directory : List String) :
    path.normal.resolve directory = path.resolve directory := by
  rw [Location.resolve_eq_namesFrom, ofPath_normal, Location.resolve_eq_namesFrom]

theorem isNormal_normal (path : Path) : path.normal.IsNormal := by
  rw [IsNormal, normal, Location.components_toPath (Location.proper_ofPath path)]
  cases Location.ofPath path with
  | absolute names => exact .inl ⟨names, rfl⟩
  | relative ups names => exact .inr ⟨ups, names, rfl⟩

theorem normal_eq_iff (path other : Path) : path.normal = other.normal ↔
    ∀ directory : List String, (∀ name ∈ directory, ProperName name) →
      path.resolve directory = other.resolve directory := by
  constructor
  · intro h directory _
    rw [← resolve_normal, h, resolve_normal]
  · intro h
    have hlocation : Location.ofPath path = .ofPath other := by
      apply Location.eq_of_namesFrom_eq
      intro directory hdirectory
      rw [← Location.resolve_eq_namesFrom, ← Location.resolve_eq_namesFrom]
      exact h directory hdirectory
    rw [normal, hlocation, normal]

theorem normal_same_iff (path other : Path) :
    path.normal.same other.normal ↔ path.normal = other.normal := by
  constructor
  · intro h
    have hcomponents : path.normal.components = other.normal.components := by
      simpa [same] using h
    rw [normal_eq_iff]
    intro directory _
    rw [← resolve_normal, resolve, hcomponents, ← resolve, resolve_normal]
  · intro h
    rw [h]
    simp [same]

theorem normal_normal (path : Path) : path.normal.normal = path.normal := by
  rw [normal, ofPath_normal, normal]

theorem normal_join (path other : Path) :
    (path.join other).normal = (path.normal.join other).normal := by
  rw [normal, normal, ← Location.ofReference_some, ← Location.ofReference_some]
  rw [Location.ofReference, Location.ofReference, ofPath_normal]

/-- The path of the location that a path leads to is its canonical form. -/
theorem canonicalForm_normal : CanonicalForm normal where
  resolve_form := resolve_normal
  isNormal_form := isNormal_normal
  form_eq_iff := normal_eq_iff
  same_iff := normal_same_iff
  form_form := normal_normal
  form_join := normal_join

example : (⟨"/../api/./admin/../shared.yaml"⟩ : Path).normal = ⟨"/api/shared.yaml"⟩ := by
  decide

end Path

end Routebook
