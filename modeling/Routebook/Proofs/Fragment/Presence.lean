import Routebook.Proofs.Fragment.OwnFields
import Routebook.Proofs.Yaml.KeyText

/-!
# Which names a mapping has after traits are applied

Applying a trait removes nothing.  What it adds under a name it has as a field, or
it writes a variable along the path that is this name alone.  A longer path ends
in a field further inside, and needs its first segment to be there.

Both bookkeeping keys of the using mapping are taken out, but at different times:
the variables when all is done, the list of traits before anything is applied.  So
no variables are left, whereas a list of traits is left where a trait brings one
with it.
-/

namespace Routebook.Fragment

/-- Whether a fragment brings a name: as one of its fields, or as a path along
which it writes a variable. -/
def Brings (fragment : Mapping) (name : String) : Prop :=
  Mapping.has (fieldsOf fragment) name ∨ name ∈ declaredPaths fragment

/-- Whether no field of a fragment reads as a name without being it, as the name
under a tag does. -/
def ReadsAlone (fragment : Mapping) (name : String) : Prop :=
  ∀ entry ∈ fieldsOf fragment, entry.1.string? = some name → entry.1.isName name

variable {name : String} {user result fragment : Mapping} {value : Value}

/-! ## Writing along a path -/

/-- A field that is found under a text that only strings have is that string. -/
theorem has_of_fieldAt? (honly : OnlyString name) (h : fieldAt? user name = some value) :
    Mapping.has user name := by
  obtain ⟨entry, hfind, -⟩ := Option.map_eq_some_iff.1 h
  have hnames := List.find?_some hfind
  by_cases hhas : Mapping.has user name
  · exact hhas
  · have hread : entry.1.name? = some name := by
      simpa [namesKey, hhas] using hnames
    have hkey : entry.1.isName name := by
      rw [eq_string_of_name? hread honly]
      simp [Value.isName]
    exact List.any_eq_true.2 ⟨entry, List.mem_of_find?_eq_some hfind, hkey⟩

/-- A path of more than one segment writes into the field that the first one
names. -/
theorem exists_eq_setField_of_writeAlong {path segment next : String} {rest : List String}
    (hrun : writeAlong path value (segment :: next :: rest) user = .ok result) :
    ∃ written, result = setField user segment written := by
  rw [writeAlong] at hrun
  split at hrun
  · obtain ⟨written, -, hresult⟩ := Outcome.bind_eq_ok.1 hrun
    cases hresult
    exact ⟨_, rfl⟩
  · split at hrun
    · cases hrun
      exact ⟨_, rfl⟩
    · cases hrun
  · cases hrun
  · cases hrun

/-- A path makes a name present only if it is that name, with nothing behind. -/
theorem has_writeAlong {path : String} {segments : List String} (honly : OnlyString name)
    (hrun : writeAlong path value segments user = .ok result) :
    Mapping.has result name ↔ Mapping.has user name ∨ segments = [name] := by
  match segments with
  | [] => cases hrun
  | [field] =>
    rw [writeAlong] at hrun
    split at hrun
    · rename_i old hfield
      cases hrun
      rw [setField, Mapping.has_writeFirst]
      refine ⟨.inl, fun h => h.elim id ?_⟩
      rintro ⟨⟩
      exact has_of_fieldAt? honly hfield
    · cases hrun
      rw [Mapping.has_append, Bool.or_eq_true]
      simp [Mapping.has, Value.isName]
  | segment :: next :: rest =>
    obtain ⟨written, rfl⟩ := exists_eq_setField_of_writeAlong hrun
    rw [setField, Mapping.has_writeFirst]
    simp

theorem eq_of_segments_eq {path : String} (h : Text.segments '|' path = [name]) :
    path = name := by
  have hchars : Text.cut '|' path.toList = [name.toList] := by
    simpa [Text.segments, Function.comp_def] using congrArg (List.map String.toList) h
  have hjoin := Text.intercalate_cut '|' path.toList
  rw [hchars] at hjoin
  exact String.toList_inj.1 (by simpa using hjoin.symm)

variable {contributed : List (String × Bool)}

theorem has_of_has_fillPath {path : String} (honly : OnlyString name)
    (hrun : fillPath contributed value user path = .ok result)
    (hname : Mapping.has result name) : Mapping.has user name ∨ path = name := by
  rw [fillPath] at hrun
  split at hrun
  · cases hrun
    exact .inl hname
  · exact ((has_writeAlong honly (Outcome.mapError_eq_ok.1 hrun)).1 hname).imp_right
      eq_of_segments_eq

/-- A path that is one name makes the name present, unless it is passed over. -/
theorem has_fillPath_self (honly : OnlyString name) (hwhole : Text.segments '|' name = [name])
    (hnot : isOverridden contributed name = false)
    (hrun : fillPath contributed value user name = .ok result) : Mapping.has result name := by
  have hwrite : writeAlong name value [name] user = .ok result := by
    simpa [fillPath, hwhole, hnot, Outcome.mapError_eq_ok] using hrun
  exact (has_writeAlong honly hwrite).2 (.inr rfl)

/-- A path is passed over only where its name is present, if nothing else reads as
this name. -/
theorem has_of_isOverridden (halone : ReadsAlone fragment name)
    (h : isOverridden (contributions user (fieldsOf fragment)) name) : Mapping.has user name := by
  have hlookup : (contributions user (fieldsOf fragment)).reverse.lookup name = some false := by
    simpa [isOverridden] using h
  have hmem := List.mem_reverse.1 (Assoc.mem_of_lookup_eq_some hlookup)
  obtain ⟨entry, hentry, hread⟩ := List.mem_filterMap.1 hmem
  obtain ⟨text, htext, hpair⟩ := Option.map_eq_some_iff.1 hread
  obtain ⟨rfl, hkey⟩ := Prod.mk.injEq _ _ _ _ ▸ hpair
  rw [Mapping.eq_string_of_isName (halone entry hentry htext), Mapping.hasKey_string] at hkey
  simpa using hkey

/-! ## Carrying out the declarations of a trait -/

section Declarations

variable {P : Mapping → Prop} {traitName path : String}

/-- What writing along each of its paths preserves is preserved by a declaration. -/
theorem fillVariable_preserves {declaration : Value × Value}
    (hpaths : ∀ path ∈ textsIn declaration.2, ∀ value current next,
      fillPath contributed value current path = .ok next → P current → P next)
    (hrun : fillVariable traitName contributed user declaration = .ok result) (huser : P user) :
    P result := by
  obtain ⟨name, value, paths, -, -, htarget, hrun⟩ := fillVariable_eq_ok.1 hrun
  rw [textsIn_of_targetPaths htarget] at hpaths
  exact Outcome.foldlM_preserves (fun path hpath => hpaths path hpath value) hrun huser

/-- What writing along one of its paths brings about holds after a declaration, if
writing along the others preserves it. -/
theorem fillVariable_establishes {declaration : Value × Value}
    (hpath : path ∈ textsIn declaration.2)
    (hbrings : ∀ value current next, fillPath contributed value current path = .ok next → P next)
    (hpaths : ∀ path ∈ textsIn declaration.2, ∀ value current next,
      fillPath contributed value current path = .ok next → P current → P next)
    (hrun : fillVariable traitName contributed user declaration = .ok result) : P result := by
  obtain ⟨name, value, paths, -, -, htarget, hrun⟩ := fillVariable_eq_ok.1 hrun
  rw [textsIn_of_targetPaths htarget] at hpath hpaths
  exact Outcome.foldlM_establishes hpath (hbrings value)
    (fun path hpath => hpaths path hpath value) hrun

variable {declared : Mapping}

theorem exists_declaration_of_mem
    (hrun : declarations traitName (Mapping.get? fragment Keyword.placeholders) = .ok declared)
    (hpath : path ∈ declaredPaths fragment) :
    ∃ declaration ∈ declared, path ∈ textsIn declaration.2 := by
  rw [declaredPaths] at hpath
  split at hpath
  · rename_i entries hget
    rw [hget] at hrun
    cases hrun
    exact List.mem_flatMap.1 hpath
  · cases hpath

variable (hdeclared :
    declarations traitName (Mapping.get? fragment Keyword.placeholders) = .ok declared)
  (hpaths : ∀ path ∈ declaredPaths fragment, ∀ value current next,
    fillPath contributed value current path = .ok next → P current → P next)
  (hrun : declared.foldlM (fillVariable traitName contributed) user = .ok result)

include hdeclared hpaths hrun

/-- What writing along each of its paths preserves is preserved by a trait. -/
theorem declarations_preserve (huser : P user) : P result := by
  refine Outcome.foldlM_preserves ?_ hrun huser
  intro declaration hmem current next hstep
  exact fillVariable_preserves
    (fun path hpath => hpaths path (mem_declaredPaths hdeclared hmem hpath)) hstep

/-- What writing along one of its paths brings about holds after a trait, if
writing along the others preserves it. -/
theorem declarations_establish (hpath : path ∈ declaredPaths fragment)
    (hbrings : ∀ value current next, fillPath contributed value current path = .ok next → P next) :
    P result := by
  obtain ⟨declaration, hmem, hwritten⟩ := exists_declaration_of_mem hdeclared hpath
  refine Outcome.foldlM_establishes hmem ?_ ?_ hrun
  · intro current next hstep
    exact fillVariable_establishes hwritten hbrings
      (fun path hpath => hpaths path (mem_declaredPaths hdeclared hmem hpath)) hstep
  · intro other hother current next hstep
    exact fillVariable_preserves
      (fun path hpath => hpaths path (mem_declaredPaths hdeclared hother hpath)) hstep

end Declarations

/-! ## Applying a trait -/

section Traits

variable {traitName : String}

/-- A trait removes no name. -/
theorem has_applyTrait_of_has (hrun : applyTrait traitName fragment user = .ok result)
    (hname : Mapping.has user name) : Mapping.has result name := by
  obtain ⟨defaulted, hdefaults, declared, hdeclared, hrun⟩ := applyTrait_eq_ok.1 hrun
  apply declarations_preserve hdeclared (P := (Mapping.has · name)) _ hrun
  · exact Mapping.has_addAbsent_of_has (has_addDefaults hdefaults hname) _
  · exact fun path _ value current next hfill => has_fillPath hfill

/-- A name that is there after a trait was there before or is brought by the trait. -/
theorem has_or_brings_of_has_applyTrait (honly : OnlyString name) (hname : name ≠ Keyword.bindings)
    (hrun : applyTrait traitName fragment user = .ok result) (hresult : Mapping.has result name) :
    Mapping.has user name ∨ Brings fragment name := by
  obtain ⟨defaulted, hdefaults, declared, hdeclared, hrun⟩ := applyTrait_eq_ok.1 hrun
  have hdefaulted : Mapping.has defaulted name = Mapping.has user name := by
    rcases addDefaults_eq_ok hdefaults with rfl | ⟨added, rfl⟩ | ⟨merged, rfl⟩
    · rfl
    · simp [Mapping.has, Value.isName, hname.symm]
    · exact Mapping.has_set_of_ne hname.symm _ _
  refine declarations_preserve hdeclared
    (P := fun current => Mapping.has current name → Mapping.has user name ∨ Brings fragment name)
    ?_ hrun ?_ hresult
  · intro path hpath value current next hfill hcurrent hnext
    rcases has_of_has_fillPath honly hfill hnext with h | rfl
    · exact hcurrent h
    · exact .inr (.inr hpath)
  · intro h
    rw [Mapping.has_addAbsent_iff, hdefaulted] at h
    exact h.imp_right .inl

/-- A name that a trait brings is there afterwards. -/
theorem has_applyTrait_of_brings (honly : OnlyString name)
    (hwhole : Text.segments '|' name = [name]) (halone : ReadsAlone fragment name)
    (hbrings : Brings fragment name) (hrun : applyTrait traitName fragment user = .ok result) :
    Mapping.has result name := by
  obtain ⟨defaulted, hdefaults, declared, hdeclared, hrun⟩ := applyTrait_eq_ok.1 hrun
  have hpaths : ∀ path ∈ declaredPaths fragment, ∀ value current next,
      fillPath (contributions defaulted (fieldsOf fragment)) value current path = .ok next →
        Mapping.has current name → Mapping.has next name :=
    fun path _ value current next hfill => has_fillPath hfill
  by_cases hmerged : Mapping.has (Mapping.addAbsent defaulted (fieldsOf fragment)) name
  · exact declarations_preserve hdeclared hpaths hrun hmerged
  · rw [Mapping.has_addAbsent_iff, not_or] at hmerged
    have hpath : name ∈ declaredPaths fragment := hbrings.resolve_left hmerged.2
    have hnot : isOverridden (contributions defaulted (fieldsOf fragment)) name = false :=
      Bool.eq_false_iff.2 fun h => hmerged.1 (has_of_isOverridden halone h)
    exact declarations_establish hdeclared hpaths hrun hpath
      fun value current next => has_fillPath_self honly hwhole hnot

end Traits

/-- No variables are left by traits.  A list of traits is left only if one of the
traits brings it, and is left then if nothing else in that trait reads like it. -/
theorem has_apply {registry : Registry} (hrun : apply registry user = .ok result) :
    Mapping.has result Keyword.bindings = false ∧
    (Mapping.has result Keyword.traitList → ∃ trait ∈ listed user, ∃ fragment,
      registry.get? trait = some fragment ∧ Brings fragment Keyword.traitList) ∧
    ∀ trait ∈ listed user, ∀ fragment, registry.get? trait = some fragment →
      Brings fragment Keyword.traitList → ReadsAlone fragment Keyword.traitList →
        Mapping.has result Keyword.traitList := by
  have honly : OnlyString Keyword.traitList := by decide
  have hne : Keyword.traitList ≠ Keyword.bindings := by decide
  obtain ⟨applied, hfold, rfl⟩ := exists_of_apply hrun
  rw [Mapping.has_erase_of_ne hne.symm]
  refine ⟨Mapping.has_erase_self _ _, ?_, ?_⟩
  · refine Outcome.foldlM_preserves (P := fun current => Mapping.has current Keyword.traitList → _)
      ?_ hfold fun h => absurd h (by simp [Mapping.has_erase_self])
    intro trait htrait current next hstep hcurrent hnext
    obtain ⟨fragment, hfragment, happly⟩ := applyNamed_eq_ok.1 hstep
    rcases has_or_brings_of_has_applyTrait honly hne happly hnext with h | h
    · exact hcurrent h
    · exact ⟨trait, htrait, fragment, hfragment, h⟩
  · intro trait htrait fragment hfragment hbrings halone
    refine Outcome.foldlM_establishes (P := (Mapping.has · Keyword.traitList)) htrait ?_ ?_ hfold
    · intro current next hstep
      obtain ⟨found, hfound, happly⟩ := applyNamed_eq_ok.1 hstep
      obtain rfl : found = fragment := Option.some.inj (hfound.symm.trans hfragment)
      exact has_applyTrait_of_brings honly (by decide) halone hbrings happly
    · intro other _ current next hstep
      obtain ⟨found, -, happly⟩ := applyNamed_eq_ok.1 hstep
      exact has_applyTrait_of_has happly

/-- A trait that writes a variable as a list of traits. -/
def listingTrait : Mapping :=
  [(.string Keyword.placeholders, .mapping [(.string "more", .string Keyword.traitList)])]

/-- A mapping that uses it. -/
def listingUser : Mapping :=
  [(.string Keyword.bindings, .mapping [(.string "more", .string "auth")]),
    (.string Keyword.traitList, .string "listing")]

theorem has_apply_listing :
    ∃ result, apply ⟨[("listing", listingTrait)]⟩ listingUser = .ok result ∧
      Mapping.has result Keyword.bindings = false ∧ Mapping.has result Keyword.traitList := by
  have hrun : apply ⟨[("listing", listingTrait)]⟩ listingUser =
      .ok [(.string Keyword.traitList, .string "auth")] := rfl
  obtain ⟨hbindings, -, hleft⟩ := has_apply hrun
  refine ⟨_, hrun, hbindings, ?_⟩
  exact hleft "listing" (by decide) listingTrait rfl (.inr (by decide)) (by rintro _ ⟨⟩)

/-- The list of traits that a trait has as a field comes out like any other field. -/
theorem apply_nested_list :
    apply ⟨[("nested", [(.string Keyword.traitList, .string "auth")])]⟩
        [(.string Keyword.traitList, .string "nested")] =
      .ok [(.string Keyword.traitList, .string "auth")] :=
  rfl

end Routebook.Fragment
