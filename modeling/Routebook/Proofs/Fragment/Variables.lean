import Mathlib.Data.List.Induction
import Routebook.Proofs.Fragment.Field
import Routebook.Proofs.Fragment.Presence
import Routebook.Proofs.Fragment.Union
import Routebook.Proofs.Yaml.Parts

/-!
# The variables that are in force

The variables of a mapping that uses traits are completed by the defaults of each
trait before the trait takes values from them, so the defaults of one trait serve
the traits behind it as well.  `inForce` is what is there when a trait is applied,
said without the mapping that changes meanwhile.

As long as no path starts at the variables themselves, only the defaults change
them: `Carries` says that a mapping under way has the variables that are in force,
and every step keeps it.  So a run succeeds only if each declared variable is in
force, and names as missing the first that is not.
-/

namespace Routebook.Fragment

/-- The entries of a mapping under no tag.  Other values have none. -/
def entriesIn : Value → Mapping
  | .mapping entries => entries
  | _ => []

/-- The variables that a mapping has values for, its own ones or, for a fragment,
its defaults. -/
def bindingsOf (entries : Mapping) : Mapping :=
  ((Mapping.get? entries Keyword.bindings).map entriesIn).getD []

/-- The variables of a mapping, completed by the defaults of traits in their order.
What is there already wins. -/
def inForce (registry : Registry) (user : Mapping) (traits : List String) : Mapping :=
  traits.foldl (fun found trait =>
    Mapping.addAbsent found (((registry.get? trait).map bindingsOf).getD [])) (bindingsOf user)

/-- What a fragment declares: its variables, each with the paths along which it is
written. -/
def declarationsOf (fragment : Mapping) : Mapping :=
  match Mapping.get? fragment Keyword.placeholders with
  | some (.mapping entries) => entries
  | _ => []

/-- Whether no path of a fragment starts at the variables. -/
def LeavesVariables (fragment : Mapping) : Prop :=
  ∀ path ∈ declaredPaths fragment, start path ≠ Keyword.bindings

instance (fragment : Mapping) : Decidable (LeavesVariables fragment) :=
  inferInstanceAs (Decidable (∀ path ∈ declaredPaths fragment, start path ≠ Keyword.bindings))

/-- Whether the variable of a declaration is among those that are found. -/
def Supplies (found : Mapping) (declaration : Value × Value) : Prop :=
  ∃ name, declaration.1.string? = some name ∧ Mapping.has found name

/-- Whether a trait is registered and, behind the given traits, all variables that it
declares are in force. -/
def Supplied (registry : Registry) (user : Mapping) (before : List String) (trait : String) :
    Prop :=
  ∃ fragment, registry.get? trait = some fragment ∧
    ∀ declaration ∈ declarationsOf fragment,
      Supplies (inForce registry user (before ++ [trait])) declaration

/-- Whether the variables of a mapping stand under no tag. -/
def BindsUntagged (entries : Mapping) : Prop :=
  ∀ tag value, Mapping.get? entries Keyword.bindings ≠ some (.tagged tag value)

/-- Whether a mapping has the given variables. -/
structure Carries (current found : Mapping) : Prop where
  untagged : BindsUntagged current
  get?_eq : ∀ name, Mapping.get? (bindingsOf current) name = Mapping.get? found name

variable {user result fragment found : Mapping} {traitName name : String}
  {contributed : List (String × Bool)}

/-! ## What is declared -/

theorem eq_declarationsOf {declared : Mapping}
    (h : declarations traitName (Mapping.get? fragment Keyword.placeholders) = .ok declared) :
    declared = declarationsOf fragment := by
  rw [declarationsOf]
  cases hget : Mapping.get? fragment Keyword.placeholders with
  | none =>
    rw [hget] at h
    cases h
    rfl
  | some value =>
    rw [hget] at h
    cases value <;> cases h <;> rfl

theorem declaredPaths_eq (fragment : Mapping) :
    declaredPaths fragment =
      (declarationsOf fragment).flatMap fun declaration => textsIn declaration.2 := by
  rw [declaredPaths, declarationsOf]
  cases Mapping.get? fragment Keyword.placeholders with
  | none => rfl
  | some value => cases value <;> rfl

theorem LeavesVariables.start_ne (h : LeavesVariables fragment) {declaration : Value × Value}
    (hmem : declaration ∈ declarationsOf fragment) {path : String}
    (hpath : path ∈ textsIn declaration.2) : start path ≠ Keyword.bindings :=
  h path (by rw [declaredPaths_eq]; exact List.mem_flatMap.2 ⟨declaration, hmem, hpath⟩)

/-! ## Looking a variable up -/

theorem bindingsOf_of_get? {entries : Mapping} {value : Value}
    (h : Mapping.get? entries Keyword.bindings = some value) :
    bindingsOf entries = entriesIn value := by
  rw [bindingsOf, h]
  rfl

theorem bindingsOf_of_get?_eq_none {entries : Mapping}
    (h : Mapping.get? entries Keyword.bindings = none) : bindingsOf entries = [] := by
  rw [bindingsOf, h]
  rfl

theorem valueOf?_congr {current : Mapping}
    (h : Mapping.get? current Keyword.bindings = Mapping.get? user Keyword.bindings)
    (name : String) : valueOf? current name = valueOf? user name := by
  rw [valueOf?, valueOf?, h]

theorem valueOf?_eq (h : BindsUntagged user) (name : String) :
    valueOf? user name = Mapping.get? (bindingsOf user) name := by
  rw [valueOf?]
  cases hget : Mapping.get? user Keyword.bindings with
  | none =>
    rw [bindingsOf_of_get?_eq_none hget]
    rfl
  | some value =>
    rw [bindingsOf_of_get? hget]
    cases value with
    | tagged tag value => exact absurd hget (h tag value)
    | _ => rfl

theorem Carries.valueOf?_eq (h : Carries user found) (name : String) :
    valueOf? user name = Mapping.get? found name := by
  rw [Fragment.valueOf?_eq h.untagged, h.get?_eq]

/-- Only the entry of the variables matters. -/
theorem Carries.of_get?_eq {current : Mapping} (h : Carries user found)
    (hget : Mapping.get? current Keyword.bindings = Mapping.get? user Keyword.bindings) :
    Carries current found := by
  constructor
  · intro tag value
    rw [hget]
    exact h.untagged tag value
  · intro name
    rw [bindingsOf, hget]
    exact h.get?_eq name

theorem carries_of_get? {value : Value}
    (hget : Mapping.get? user Keyword.bindings = some value)
    (huntagged : ∀ tag inner, value ≠ .tagged tag inner)
    (hvalues : ∀ name, Mapping.get? (entriesIn value) name = Mapping.get? found name) :
    Carries user found := by
  constructor
  · intro tag inner
    rw [hget]
    exact fun heq => huntagged tag inner (Option.some.inj heq)
  · intro name
    rw [bindingsOf_of_get? hget, hvalues]

/-! ## What a step does to the variables -/

/-- Default variables are added to those that are there. -/
theorem Carries.addDefaults (h : Carries user found) (hfragment : BindsUntagged fragment)
    (hrun : Fragment.addDefaults user (Mapping.get? fragment Keyword.bindings) = .ok result) :
    Carries result (Mapping.addAbsent found (bindingsOf fragment)) := by
  rw [Fragment.addDefaults.eq_def] at hrun
  split at hrun
  · rename_i hnone
    cases hrun
    rw [bindingsOf_of_get?_eq_none hnone]
    exact h
  · -- Without own variables, those of the trait are copied as they are.
    rename_i defaults hsome hnone
    cases hrun
    have hget : Mapping.get? (user ++ [(.string Keyword.bindings, defaults)]) Keyword.bindings =
        some defaults := by
      rw [Mapping.get?_append, hnone]
      rfl
    refine carries_of_get? hget (fun tag inner heq => ?_) fun name => ?_
    · exact hfragment tag inner (heq ▸ hsome)
    · have hfound : Mapping.get? found name = none := by
        rw [← h.get?_eq, bindingsOf_of_get?_eq_none hnone]
        rfl
      rw [bindingsOf_of_get? hsome, Mapping.get?_addAbsent_eq_or, hfound, Option.none_or]
  · rename_i defaults bindings hsome hbindings
    cases hrun
    refine carries_of_get? (Mapping.get?_set_self _ _ _) (by rintro tag inner ⟨⟩) fun name => ?_
    have hfound : Mapping.get? found name = Mapping.get? bindings name := by
      rw [← h.get?_eq, bindingsOf_of_get? hbindings]
      rfl
    rw [bindingsOf_of_get? hsome, Mapping.get?_addAbsent_eq_or, hfound]
    exact Mapping.get?_addAbsent_eq_or bindings defaults name
  · -- Defaults that are no mapping have no entries.
    rename_i defaults bindings hother hsome hbindings
    cases hrun
    have hnothing : entriesIn defaults = [] := by
      cases defaults with
      | mapping entries => exact absurd rfl (hother entries)
      | _ => rfl
    rw [bindingsOf_of_get? hsome, hnothing]
    exact h
  · cases hrun

theorem get?_bindings_addAbsent_fieldsOf (user fragment : Mapping) :
    Mapping.get? (Mapping.addAbsent user (fieldsOf fragment)) Keyword.bindings =
      Mapping.get? user Keyword.bindings :=
  Mapping.get?_addAbsent (has_fieldsOf_bindings fragment) user

/-- Writing variables leaves the variables alone, and needs all that are declared. -/
theorem get?_bindings_of_declarations {declared : Mapping}
    (hleaves : ∀ declaration ∈ declared, ∀ path ∈ textsIn declaration.2,
      start path ≠ Keyword.bindings)
    (hrun : declared.foldlM (fillVariable traitName contributed) user = .ok result) :
    Mapping.get? result Keyword.bindings = Mapping.get? user Keyword.bindings := by
  refine Outcome.foldlM_preserves
    (P := fun current => Mapping.get? current Keyword.bindings = _) ?_ hrun rfl
  intro declaration hmem current next hstep hcurrent
  refine fillVariable_preserves
    (P := fun current => Mapping.get? current Keyword.bindings = _) ?_ hstep hcurrent
  intro path hpath value current next hfill hcurrent
  rw [get?_fillPath (hleaves declaration hmem path hpath) hfill, hcurrent]

theorem exists_value_of_declarations {declared : Mapping}
    (hleaves : ∀ declaration ∈ declared, ∀ path ∈ textsIn declaration.2,
      start path ≠ Keyword.bindings)
    (hrun : declared.foldlM (fillVariable traitName contributed) user = .ok result)
    {declaration : Value × Value} (hmem : declaration ∈ declared) :
    ∃ name value paths, declaration.1.string? = some name ∧ valueOf? user name = some value ∧
      targetPaths traitName name declaration.2 = .ok paths := by
  obtain ⟨before, after, rfl⟩ := List.append_of_mem hmem
  obtain ⟨reached, next, hreached, hnext, -⟩ := Outcome.exists_of_foldlM_append hrun
  obtain ⟨name, value, paths, hname, hvalue, hpaths, -⟩ := fillVariable_eq_ok.1 hnext
  have hget := get?_bindings_of_declarations
    (fun other hother => hleaves other (List.mem_append_left _ hother)) hreached
  exact ⟨name, value, paths, hname, by rw [← valueOf?_congr hget, hvalue], hpaths⟩

/-! ## Traits that succeed -/

section Traits

variable {trait : String}

/-- What has been carried out has been supplied. -/
theorem Carries.supplies (h : Carries user found) {declared : Mapping}
    (hleaves : ∀ declaration ∈ declared, ∀ path ∈ textsIn declaration.2,
      start path ≠ Keyword.bindings)
    (hrun : declared.foldlM (fillVariable traitName contributed) user = .ok result) :
    ∀ declaration ∈ declared, Supplies found declaration := by
  intro declaration hmem
  obtain ⟨name, value, -, hname, hvalue, -⟩ := exists_value_of_declarations hleaves hrun hmem
  rw [h.valueOf?_eq] at hvalue
  exact ⟨name, hname, Mapping.has_of_get?_eq_some hvalue⟩

/-- A trait that succeeds adds its defaults to the variables in force, and finds all
that it declares among them. -/
theorem Carries.applyTrait (h : Carries user found) (hfragment : BindsUntagged fragment)
    (hleaves : LeavesVariables fragment)
    (hrun : Fragment.applyTrait traitName fragment user = .ok result) :
    Carries result (Mapping.addAbsent found (bindingsOf fragment)) ∧
      ∀ declaration ∈ declarationsOf fragment,
        Supplies (Mapping.addAbsent found (bindingsOf fragment)) declaration := by
  obtain ⟨defaulted, hdefaults, declared, hdeclared, hrun⟩ := applyTrait_eq_ok.1 hrun
  obtain rfl := eq_declarationsOf hdeclared
  have hmerged : Carries (Mapping.addAbsent defaulted (fieldsOf fragment))
      (Mapping.addAbsent found (bindingsOf fragment)) :=
    (h.addDefaults hfragment hdefaults).of_get?_eq (get?_bindings_addAbsent_fieldsOf _ _)
  have hpaths : ∀ declaration ∈ declarationsOf fragment, ∀ path ∈ textsIn declaration.2,
      start path ≠ Keyword.bindings := fun _ hmem _ => hleaves.start_ne hmem
  constructor
  · exact hmerged.of_get?_eq (get?_bindings_of_declarations hpaths hrun)
  · exact hmerged.supplies hpaths hrun

theorem inForce_append_singleton {registry : Registry} (hget : registry.get? trait = some fragment)
    (user : Mapping) (traits : List String) :
    inForce registry user (traits ++ [trait]) =
      Mapping.addAbsent (inForce registry user traits) (bindingsOf fragment) := by
  rw [inForce, List.foldl_append, List.foldl_cons, List.foldl_nil, hget]
  rfl

end Traits

/-! ## Traits that miss a variable -/

section Failures

variable {missing trait : String}

theorem fillVariable_eq_unfulfilled {declaration : Value × Value}
    (hrun : fillVariable traitName contributed user declaration =
      .error (.unfulfilledVariable trait missing)) :
    trait = traitName ∧ declaration.1.string? = some missing ∧ valueOf? user missing = none := by
  rw [fillVariable.eq_def] at hrun
  split at hrun
  · cases hrun
  · rename_i name hname
    split at hrun
    · rename_i hvalue
      cases hrun
      exact ⟨rfl, hname, hvalue⟩
    · rcases Outcome.bind_eq_error.1 hrun with htargets | ⟨paths, -, hpaths⟩
      · obtain ⟨fault, -, hfault⟩ := Outcome.mapError_eq_error.1 htargets
        cases hfault
      · obtain ⟨-, path, -, current, -, -, hfill⟩ := Outcome.exists_of_foldlM_eq_error hpaths
        obtain ⟨fault, hfault⟩ := exists_of_fillPath_eq_error hfill
        cases hfault

/-- A trait that misses a variable has its defaults added, and finds all that it
declares before the missing one. -/
theorem Carries.applyTrait_eq_unfulfilled (h : Carries user found)
    (hfragment : BindsUntagged fragment) (hleaves : LeavesVariables fragment)
    (hrun : Fragment.applyTrait traitName fragment user =
      .error (.unfulfilledVariable trait missing)) :
    trait = traitName ∧ ∃ earlier declaration later,
      declarationsOf fragment = earlier ++ declaration :: later ∧
        declaration.1.string? = some missing ∧
        Mapping.has (Mapping.addAbsent found (bindingsOf fragment)) missing = false ∧
        ∀ other ∈ earlier, Supplies (Mapping.addAbsent found (bindingsOf fragment)) other := by
  rw [Fragment.applyTrait, Outcome.bind_eq_error] at hrun
  rcases hrun with hdefaults | ⟨defaulted, hdefaults, hrun⟩
  · obtain ⟨fault, -, hfault⟩ := Outcome.mapError_eq_error.1 hdefaults
    cases hfault
  rw [Outcome.bind_eq_error] at hrun
  rcases hrun with hdeclared | ⟨declared, hdeclared, hrun⟩
  · obtain ⟨fault, -, hfault⟩ := Outcome.mapError_eq_error.1 hdeclared
    cases hfault
  rw [Outcome.mapError_eq_ok] at hdefaults hdeclared
  obtain rfl := eq_declarationsOf hdeclared
  obtain ⟨earlier, declaration, later, reached, hsplit, hreached, hstep⟩ :=
    Outcome.exists_of_foldlM_eq_error hrun
  obtain ⟨htrait, hname, hvalue⟩ := fillVariable_eq_unfulfilled hstep
  have hmerged : Carries (Mapping.addAbsent defaulted (fieldsOf fragment))
      (Mapping.addAbsent found (bindingsOf fragment)) :=
    (h.addDefaults hfragment hdefaults).of_get?_eq (get?_bindings_addAbsent_fieldsOf _ _)
  have hpaths : ∀ declaration ∈ earlier, ∀ path ∈ textsIn declaration.2,
      start path ≠ Keyword.bindings := by
    intro other hother path
    exact hleaves.start_ne (by rw [hsplit]; exact List.mem_append_left _ hother)
  refine ⟨htrait, earlier, declaration, later, hsplit, hname, ?_, ?_⟩
  · rw [← Mapping.get?_eq_none_iff, ← hmerged.valueOf?_eq,
      ← valueOf?_congr (get?_bindings_of_declarations hpaths hreached), hvalue]
  · exact hmerged.supplies hpaths hreached

end Failures

/-! ## Runs -/

section Runs

/-- Applying traits fails over the list itself, or at one of the traits. -/
theorem foldlM_of_apply_eq_error {registry : Registry} {error : Error}
    (hrun : apply registry user = .error error) :
    (∃ fault, error = .tag fault) ∨ (listed user).foldlM (applyNamed registry)
      (Mapping.erase user Keyword.traitList) = .error error := by
  rw [apply] at hrun
  split at hrun
  · cases hrun
    exact .inl ⟨_, rfl⟩
  · rename_i list hget
    rcases Outcome.bind_eq_error.1 hrun with hlist | ⟨names, hnames, hrun⟩
    · obtain ⟨fault, -, rfl⟩ := Outcome.mapError_eq_error.1 hlist
      exact .inl ⟨fault, rfl⟩
    · have hlisted : listed user = names :=
        listed_of_listedTraits hget (Outcome.mapError_eq_ok.1 hnames)
      rcases Outcome.bind_eq_error.1 hrun with hfold | ⟨applied, -, hrest⟩
      · exact .inr (hlisted ▸ hfold)
      · cases hrest

theorem applyNamed_eq_unfulfilled {registry : Registry} {named trait missing : String}
    (hrun : applyNamed registry user named = .error (.unfulfilledVariable trait missing)) :
    ∃ fragment, registry.get? named = some fragment ∧
      applyTrait named fragment user = .error (.unfulfilledVariable trait missing) := by
  rw [applyNamed] at hrun
  split at hrun
  · rename_i fragment hget
    exact ⟨fragment, hget, hrun⟩
  · cases hrun

variable {registry : Registry} {before after traits : List String} {trait : String}

/-- Traits that succeed, one after the other, complete the variables. -/
theorem carries_of_foldlM (hfragments : ∀ trait ∈ traits, ∀ fragment,
      registry.get? trait = some fragment → BindsUntagged fragment ∧ LeavesVariables fragment)
    {start : Mapping} (hstart : Carries start (bindingsOf user))
    (hrun : traits.foldlM (applyNamed registry) start = .ok result) :
    Carries result (inForce registry user traits) := by
  induction traits using List.reverseRecOn generalizing result with
  | nil =>
    cases hrun
    exact hstart
  | append_singleton traits trait ih =>
    obtain ⟨reached, next, hreached, hnext, hrest⟩ := Outcome.exists_of_foldlM_append hrun
    cases hrest
    obtain ⟨fragment, hget, happly⟩ := applyNamed_eq_ok.1 hnext
    obtain ⟨huntagged, hleaves⟩ := hfragments trait (by simp) fragment hget
    have hcarries := ih (fun other hother => hfragments other (by simp [hother])) hreached
    rw [inForce_append_singleton hget]
    exact (hcarries.applyTrait huntagged hleaves happly).1

/-- Each of the traits that have succeeded has been supplied. -/
theorem supplied_of_foldlM (hfragments : ∀ other ∈ before ++ trait :: after, ∀ fragment,
      registry.get? other = some fragment → BindsUntagged fragment ∧ LeavesVariables fragment)
    {start : Mapping} (hstart : Carries start (bindingsOf user))
    (hrun : (before ++ trait :: after).foldlM (applyNamed registry) start = .ok result) :
    Supplied registry user before trait := by
  obtain ⟨reached, next, hreached, hnext, -⟩ := Outcome.exists_of_foldlM_append hrun
  obtain ⟨fragment, hget, happly⟩ := applyNamed_eq_ok.1 hnext
  have hcarries : Carries reached (inForce registry user before) :=
    carries_of_foldlM (fun other hother => hfragments other (by simp [hother])) hstart hreached
  obtain ⟨huntagged, hleaves⟩ := hfragments trait (by simp) fragment hget
  refine ⟨fragment, hget, ?_⟩
  rw [inForce_append_singleton hget]
  exact (hcarries.applyTrait huntagged hleaves happly).2

theorem bindsUntagged_of_plain {entries : Mapping} (h : Value.Plain (.mapping entries)) :
    BindsUntagged entries := by
  intro tag value hget
  have hplain : Value.Plain (.tagged tag value) := ((Value.madeOf_mapping.1 h).of_get? hget).2
  exact (Value.madeOf_tagged.1 hplain).1

/-- The list of traits is taken out first, with no effect on the variables. -/
theorem carries_erase_traitList (h : BindsUntagged user) :
    Carries (Mapping.erase user Keyword.traitList) (bindingsOf user) := by
  have hne : Keyword.traitList ≠ Keyword.bindings := by decide
  have hself : Carries user (bindingsOf user) := ⟨h, fun _ => rfl⟩
  exact hself.of_get?_eq (Mapping.get?_erase_of_ne hne user)

end Runs

/-- If traits are applied, every variable that they declare is in force when its trait
is applied.  A variable that is reported as missing is not in force at the trait that
is named, which declares it, and all variables that are declared before are. -/
theorem apply_missing_variable {registry : Registry} (huser : Value.Plain (.mapping user))
    (htraits : ∀ trait ∈ listed user, ∀ fragment, registry.get? trait = some fragment →
      Value.Plain (.mapping fragment) ∧ LeavesVariables fragment) :
    (∀ result, apply registry user = .ok result →
      ∀ before trait after, listed user = before ++ trait :: after →
        Supplied registry user before trait) ∧
    (∀ trait missing, apply registry user = .error (.unfulfilledVariable trait missing) →
      ∃ before after, listed user = before ++ trait :: after ∧
        (∀ earlier other later, before = earlier ++ other :: later →
          Supplied registry user earlier other) ∧
        ∃ fragment, registry.get? trait = some fragment ∧
          ∃ earlier declaration later,
            declarationsOf fragment = earlier ++ declaration :: later ∧
            declaration.1.string? = some missing ∧
            Mapping.has (inForce registry user (before ++ [trait])) missing = false ∧
            ∀ other ∈ earlier, Supplies (inForce registry user (before ++ [trait])) other) := by
  have hfragments : ∀ trait ∈ listed user, ∀ fragment, registry.get? trait = some fragment →
      BindsUntagged fragment ∧ LeavesVariables fragment := fun trait htrait fragment hget =>
    (htraits trait htrait fragment hget).imp_left bindsUntagged_of_plain
  have hstart := carries_erase_traitList (bindsUntagged_of_plain huser)
  constructor
  · intro result hrun before trait after hsplit
    obtain ⟨applied, hfold, -⟩ := exists_of_apply hrun
    rw [hsplit] at hfold hfragments
    exact supplied_of_foldlM hfragments hstart hfold
  · intro trait missing hrun
    rcases foldlM_of_apply_eq_error hrun with ⟨fault, hfault⟩ | hfold
    · cases hfault
    obtain ⟨before, named, after, reached, hsplit, hreached, hstep⟩ :=
      Outcome.exists_of_foldlM_eq_error hfold
    obtain ⟨fragment, hget, happly⟩ := applyNamed_eq_unfulfilled hstep
    rw [hsplit] at hfragments
    have hbefore : ∀ other ∈ before, ∀ fragment, registry.get? other = some fragment →
        BindsUntagged fragment ∧ LeavesVariables fragment :=
      fun other hother => hfragments other (List.mem_append_left _ hother)
    obtain ⟨huntagged, hleaves⟩ := hfragments named (by simp) fragment hget
    have hcarries := carries_of_foldlM hbefore hstart hreached
    obtain ⟨rfl, hmissing⟩ := hcarries.applyTrait_eq_unfulfilled huntagged hleaves happly
    rw [← inForce_append_singleton hget] at hmissing
    refine ⟨before, after, hsplit, ?_, fragment, hget, hmissing⟩
    rintro earlier other later rfl
    exact supplied_of_foldlM hbefore hstart hreached

/-- A trait with a default variable, and one that takes this variable and another
one. -/
def sortedRegistry : Registry where
  fragments :=
    [("sized", [(.string Keyword.bindings, .mapping [(.string "size", .string "20")]),
        (.string Keyword.placeholders, .mapping [(.string "size", .string "limit")])]),
      ("sorted", [(.string "order", .string "asc"), (.string Keyword.placeholders,
        .mapping [(.string "size", .string "pageSize"), (.string "order", .string "order")])])]

/-- A mapping that uses both and has the only field that the second variable is
written to. -/
def sortedUser : Mapping :=
  [(.string Keyword.traitList, .sequence [.string "sized", .string "sorted"]),
    (.string "order", .string "desc")]

theorem apply_missing_variable_order :
    apply sortedRegistry sortedUser = .error (.unfulfilledVariable "sorted" "order") ∧
      ∃ before after, listed sortedUser = before ++ "sorted" :: after ∧
        Mapping.has (inForce sortedRegistry sortedUser (before ++ ["sorted"])) "order" = false := by
  have hrun : apply sortedRegistry sortedUser =
      .error (.unfulfilledVariable "sorted" "order") := rfl
  have huser : Value.Plain (.mapping sortedUser) := by
    simp [Value.Plain, sortedUser, Value.madeOf_mapping, Mapping.madeOf_cons,
      Value.madeOf_sequence, Value.Untagged]
  have htraits : ∀ trait ∈ listed sortedUser, ∀ fragment,
      sortedRegistry.get? trait = some fragment →
        Value.Plain (.mapping fragment) ∧ LeavesVariables fragment := by
    intro trait htrait fragment hget
    have hnames : trait = "sized" ∨ trait = "sorted" := by
      simpa [listed, sortedUser, Mapping.get?, Value.isName, textsIn, plainText?] using htrait
    rcases hnames with rfl | rfl
    · cases hget
      refine ⟨?_, by decide⟩
      simp [Value.Plain, Value.madeOf_mapping, Mapping.madeOf_cons, Value.Untagged]
    · cases hget
      refine ⟨?_, by decide⟩
      simp [Value.Plain, Value.madeOf_mapping, Mapping.madeOf_cons, Value.Untagged]
  obtain ⟨before, after, hsplit, -, fragment, -, -, -, -, -, -, hmissing, -⟩ :=
    (apply_missing_variable huser htraits).2 "sorted" "order" hrun
  exact ⟨hrun, before, after, hsplit, hmissing⟩

end Routebook.Fragment
