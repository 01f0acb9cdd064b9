import Routebook.Proofs.Fragment.OwnFields
import Routebook.Proofs.Yaml.Parts

/-!
# What applying traits makes

The parts of a mapping that uses traits come from the mapping itself and from the
traits that it lists.  The only keys that may be new are the ends of the paths
along which variables are written.
-/

namespace Routebook.Fragment

/-- The last segment of a path. -/
def target (path : String) : String :=
  (Text.segments '|' path).getLastD ""

/-- Whether the paths that a fragment declares end in allowed keys. -/
def TargetsAllowed (allowed : Part → Prop) (fragment : Mapping) : Prop :=
  ∀ path ∈ declaredPaths fragment, allowed (.key (.string (target path)))

variable {allowed : Part → Prop} {user result fragment : Mapping} {value : Value}

theorem madeOf_fieldAt? {segment : String} (h : Mapping.MadeOf allowed user)
    (hfield : fieldAt? user segment = some value) : value.MadeOf allowed := by
  obtain ⟨entry, hfind, rfl⟩ := Option.map_eq_some_iff.1 hfield
  exact (h entry (List.mem_of_find?_eq_some hfind)).2

/-- Writing along a path adds no key but its last segment. -/
theorem madeOf_writeAlong {path : String} {segments : List String}
    (huser : Mapping.MadeOf allowed user) (hvalue : value.MadeOf allowed)
    (htarget : allowed (.key (.string (segments.getLastD ""))))
    (hrun : writeAlong path value segments user = .ok result) :
    Mapping.MadeOf allowed result := by
  induction segments generalizing user result with
  | nil => cases hrun
  | cons segment rest ih =>
    cases rest with
    | nil =>
      rw [writeAlong] at hrun
      split at hrun
      · cases hrun
        exact huser.writeFirst _ hvalue
      · cases hrun
        exact huser.add htarget hvalue
    | cons next rest =>
      rw [writeAlong] at hrun
      split at hrun
      · rename_i child hchild
        obtain ⟨written, hwritten, hresult⟩ := Outcome.bind_eq_ok.1 hrun
        cases hresult
        have hbefore := Value.madeOf_mapping.1 (madeOf_fieldAt? huser hchild)
        exact huser.writeFirst _ (Value.madeOf_mapping.2 (ih hbefore htarget hwritten))
      · split at hrun
        · cases hrun
          exact huser.writeFirst _ (Value.madeOf_string _)
        · cases hrun
      · cases hrun
      · cases hrun

theorem madeOf_addDefaults {defaults : Option Value} (huser : Mapping.MadeOf allowed user)
    (hdefaults : ∀ value, defaults = some value →
      allowed (.key (.string Keyword.bindings)) ∧ value.MadeOf allowed)
    (hrun : addDefaults user defaults = .ok result) : Mapping.MadeOf allowed result := by
  rw [addDefaults.eq_def] at hrun
  split at hrun
  · cases hrun
    exact huser
  · cases hrun
    obtain ⟨hkey, hvalue⟩ := hdefaults _ rfl
    exact huser.add hkey hvalue
  · rename_i hbindings
    cases hrun
    obtain ⟨hkey, hadded⟩ := hdefaults _ rfl
    have hbefore := Value.madeOf_mapping.1 (huser.of_get? hbindings).2
    have hafter := hbefore.addAbsent (Value.madeOf_mapping.1 hadded)
    exact huser.insert hkey (Value.madeOf_mapping.2 hafter)
  · cases hrun
    exact huser
  · cases hrun

theorem madeOf_valueOf? {name : String} (huser : Mapping.MadeOf allowed user)
    (hvalue : valueOf? user name = some value) : value.MadeOf allowed := by
  obtain ⟨bindings, hbindings, hvalue⟩ := Option.bind_eq_some_iff.1 hvalue
  obtain ⟨entries, hentries, hvalue⟩ := Option.bind_eq_some_iff.1 hvalue
  exact (((huser.of_get? hbindings).2.mapping? hentries).of_get? hvalue).2

theorem madeOf_fillPath {contributed : List (String × Bool)} {path : String}
    (huser : Mapping.MadeOf allowed user) (hvalue : value.MadeOf allowed)
    (htarget : allowed (.key (.string (target path))))
    (hrun : fillPath contributed value user path = .ok result) :
    Mapping.MadeOf allowed result := by
  rw [fillPath] at hrun
  split at hrun
  · cases hrun
    exact huser
  · exact madeOf_writeAlong huser hvalue htarget (Outcome.mapError_eq_ok.1 hrun)

theorem madeOf_fillVariable {traitName : String} {contributed : List (String × Bool)}
    {declaration : Value × Value} (huser : Mapping.MadeOf allowed user)
    (htargets : ∀ path ∈ textsIn declaration.2, allowed (.key (.string (target path))))
    (hrun : fillVariable traitName contributed user declaration = .ok result) :
    Mapping.MadeOf allowed result := by
  obtain ⟨name, value, paths, -, hvalue, hpaths, hrun⟩ := fillVariable_eq_ok.1 hrun
  rw [textsIn_of_targetPaths hpaths] at htargets
  refine Outcome.foldlM_preserves ?_ hrun huser
  intro path hpath current next hfill hcurrent
  exact madeOf_fillPath hcurrent (madeOf_valueOf? huser hvalue) (htargets path hpath) hfill

theorem madeOf_applyTrait {traitName : String} (huser : Mapping.MadeOf allowed user)
    (hfragment : Mapping.MadeOf allowed fragment) (htargets : TargetsAllowed allowed fragment)
    (hrun : applyTrait traitName fragment user = .ok result) : Mapping.MadeOf allowed result := by
  obtain ⟨defaulted, hdefaults, declared, hdeclared, hrun⟩ := applyTrait_eq_ok.1 hrun
  have hdefaulted : Mapping.MadeOf allowed defaulted :=
    madeOf_addDefaults huser (fun _ hvalue => hfragment.of_get? hvalue) hdefaults
  have hfields : Mapping.MadeOf allowed (fieldsOf fragment) := (hfragment.erase _).erase _
  refine Outcome.foldlM_preserves ?_ hrun (hdefaulted.addAbsent hfields)
  intro declaration hmem current next hstep hcurrent
  refine madeOf_fillVariable hcurrent ?_ hstep
  exact fun path hpath => htargets path (mem_declaredPaths hdeclared hmem hpath)

/-- Applying traits makes a mapping of the parts of the mapping, of the listed
traits, and of the ends of their paths. -/
theorem madeOf_apply {registry : Registry} (huser : Mapping.MadeOf allowed user)
    (hregistry : ∀ name ∈ listed user, ∀ fragment, registry.get? name = some fragment →
      Mapping.MadeOf allowed fragment ∧ TargetsAllowed allowed fragment)
    (hrun : apply registry user = .ok result) : Mapping.MadeOf allowed result := by
  obtain ⟨applied, hfold, rfl⟩ := exists_of_apply hrun
  apply Mapping.MadeOf.erase
  refine Outcome.foldlM_preserves ?_ hfold (huser.erase _)
  intro name hname current next hstep hcurrent
  obtain ⟨fragment, hget, happly⟩ := applyNamed_eq_ok.1 hstep
  obtain ⟨hmade, htargets⟩ := hregistry name hname fragment hget
  exact madeOf_applyTrait hcurrent hmade htargets happly

end Routebook.Fragment
