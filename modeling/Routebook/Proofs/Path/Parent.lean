import Mathlib.Data.List.Basic
import Routebook.Proofs.Path.Canonical

/-!
# The directory of a file

The directory that the path of a file names is the place from which the file was
reached by its name.  This holds at the root and at an unknown starting place as
well, where the directory is the empty path.
-/

namespace Routebook

namespace Path

/-- Nothing is cut off behind a segment with a meaning. -/
theorem trimEnd_append_singleton {segments : List String} {last : String}
    (h : isIdle last = false) : trimEnd (segments ++ [last]) = segments ++ [last] := by
  simp [trimEnd, h]

theorem trimEnd_eq_self {segments : List String}
    (hsegments : ∀ segment ∈ segments, isIdle segment = false) : trimEnd segments = segments := by
  rcases List.eq_nil_or_concat' segments with rfl | ⟨before, last, rfl⟩
  · rfl
  · exact trimEnd_append_singleton (hsegments last (by simp))

/-- The directory of a relative path that ends in a name. -/
theorem parent?_join {segments : List String} {name : String} (hname : ProperName name)
    (hsegments : ∀ segment ∈ segments, segment = ".." ∨ ProperName segment) :
    (⟨Text.join '/' (segments ++ [name])⟩ : Path).parent? = some ⟨Text.join '/' segments⟩ := by
  have hall : ∀ segment ∈ segments ++ [name], segment = ".." ∨ ProperName segment := by
    intro segment hsegment
    rcases List.mem_append.1 hsegment with hsegment | hsegment
    · exact hsegments segment hsegment
    · exact .inr (List.mem_singleton.1 hsegment ▸ hname)
  have hfull : trimEnd (segments ++ [name]) = segments ++ [name] :=
    trimEnd_append_singleton (isIdle_eq_false (.inr hname))
  have hrest : trimEnd segments = segments :=
    trimEnd_eq_self fun segment hsegment => isIdle_eq_false (hsegments segment hsegment)
  have hne : (segments ++ [name]).isEmpty = false := by simp
  rw [parent?, body_join (by simp) hall]
  simp only [hfull, hrest, hne, List.dropLast_concat]

/-- The directory of an absolute path that ends in a name. -/
theorem parent?_slash_join {names : List String} {name : String} (hname : ProperName name)
    (hnames : ∀ name ∈ names, ProperName name) :
    (⟨"/" ++ Text.join '/' (names ++ [name])⟩ : Path).parent? =
      some ⟨"/" ++ Text.join '/' names⟩ := by
  have hall : ∀ other ∈ names ++ [name], '/' ∉ other.toList := by
    intro other hother
    rcases List.mem_append.1 hother with hother | hother
    · exact (hnames other hother).2.2.2
    · exact List.mem_singleton.1 hother ▸ hname.2.2.2
  have hfull : trimEnd (names ++ [name]) = names ++ [name] :=
    trimEnd_append_singleton (isIdle_eq_false (.inr hname))
  have hrest : trimEnd names = names :=
    trimEnd_eq_self fun other hother => isIdle_eq_false (.inr (hnames other hother))
  have hne : (names ++ [name]).isEmpty = false := by simp
  rw [parent?, body_slash, Text.segments_join (by simp) hall]
  simp only [hfull, hrest, hne, List.dropLast_concat]

end Path

namespace Location

/-- The directory of a file in a directory is that directory. -/
theorem parent?_toPath_step {location : Location} (h : location.Proper) {name : String}
    (hname : Path.ProperName name) :
    (location.step (.name name)).toPath.parent? = some location.toPath := by
  cases location with
  | absolute names => exact Path.parent?_slash_join hname h
  | relative ups names =>
    rw [step, toPath, text, ← List.append_assoc, Path.parent?_join hname]
    · rfl
    · intro segment hsegment
      rcases List.mem_append.1 hsegment with hsegment | hsegment
      · exact .inl (List.eq_of_mem_replicate hsegment)
      · exact .inr (h segment hsegment)

/-- The place from which references in the files of a directory start. -/
def base (directory : Option Path) : Location :=
  (directory.map ofPath).getD (.relative 0 [])

theorem ofReference_eq_follow (directory : Option Path) (path : Path) :
    ofReference directory path = (base directory).follow path := by
  cases directory <;> rfl

theorem proper_base (directory : Option Path) : (base directory).Proper := by
  cases directory with
  | none => simp [base, Proper, names]
  | some directory => exact proper_ofPath directory

/-- A reference by a mere name leads to a file in the directory itself. -/
theorem parent?_ofReference {directory : Option Path} {file name : String}
    (hfile : (⟨file⟩ : Path).components = [.name name]) :
    (ofReference directory ⟨file⟩).toPath.parent? = some (base directory).toPath := by
  have hname : Path.ProperName name := by
    apply @Path.properName_of_mem_components ⟨file⟩
    simp [hfile]
  have hlocation : ofReference directory ⟨file⟩ = (base directory).step (.name name) := by
    rw [ofReference_eq_follow, follow, hfile]
    rfl
  rw [hlocation, parent?_toPath_step (proper_base directory) hname]

/-- Directories with the same components lead to the same place. -/
theorem base_eq_of_same {path other : Path} (h : path.same other) :
    base (some path) = base (some other) := by
  have hcomponents : path.components = other.components := by simpa [Path.same] using h
  simp [base, ofPath, follow, hcomponents]

end Location

end Routebook
