import Routebook.Proofs.Fragment.Variables

/-!
# Naming a trait again

Writing a value into a text a second time is not the same as writing it once, so
that a trait which is named twice changes nothing the second time is due to the
first time: the fields of the trait are there, its default variables are there, and
its variables have values.  `Absorbed` says so of a mapping, and whatever other
traits do in between does not undo it.

Where a trait has been absorbed, all its fields count as the mapping's own ones.  If
each path starts at one of them, all paths are passed over.
-/

namespace Routebook.Fragment

/-- Whether a trait has nothing to add to a mapping, apart from what its paths
write. -/
structure Absorbed (traitName : String) (fragment current : Mapping) : Prop where
  fields : ∀ entry ∈ fieldsOf fragment, Mapping.hasKey current entry.1
  defaults : ∀ added, Mapping.get? fragment Keyword.bindings = some (.mapping added) →
    ∃ bindings, Mapping.get? current Keyword.bindings = some (.mapping bindings) ∧
      ∀ entry ∈ added, Mapping.hasKey bindings entry.1
  declared : declarations traitName (Mapping.get? fragment Keyword.placeholders) =
    .ok (declarationsOf fragment)
  supplied : ∀ declaration ∈ declarationsOf fragment, ∃ name value paths,
    declaration.1.string? = some name ∧ valueOf? current name = some value ∧
      targetPaths traitName name declaration.2 = .ok paths

/-- Whether each path of a fragment starts at one of its fields. -/
def StartsAtFields (fragment : Mapping) : Prop :=
  ∀ path ∈ declaredPaths fragment, Mapping.has (fieldsOf fragment) (start path)

instance (fragment : Mapping) : Decidable (StartsAtFields fragment) :=
  inferInstanceAs
    (Decidable (∀ path ∈ declaredPaths fragment, Mapping.has (fieldsOf fragment) (start path)))

variable {user result current fragment : Mapping} {traitName : String}

/-! ## What default variables keep and bring -/

theorem hasKey_addDefaults {defaults : Option Value} {key : Value}
    (hrun : addDefaults user defaults = .ok result) (h : Mapping.hasKey user key) :
    Mapping.hasKey result key := by
  rcases addDefaults_eq_ok hrun with rfl | ⟨added, rfl⟩ | ⟨merged, rfl⟩
  · exact h
  · rw [Mapping.hasKey_append, h, Bool.true_or]
  · exact Mapping.hasKey_insert h _ _

/-- Variables that are a mapping are completed at most. -/
theorem exists_bindings_of_addDefaults {defaults : Option Value} {bindings : Mapping}
    (hrun : addDefaults user defaults = .ok result)
    (hget : Mapping.get? user Keyword.bindings = some (.mapping bindings)) :
    ∃ added, Mapping.get? result Keyword.bindings =
      some (.mapping (Mapping.addAbsent bindings added)) := by
  rw [addDefaults.eq_def, hget] at hrun
  cases defaults with
  | none =>
    cases hrun
    exact ⟨[], hget⟩
  | some value =>
    cases value with
    | mapping added =>
      cases hrun
      exact ⟨added, Mapping.get?_set_self _ _ _⟩
    | _ =>
      cases hrun
      exact ⟨[], hget⟩

theorem valueOf?_addDefaults {defaults : Option Value} {name : String} {value : Value}
    (hrun : addDefaults user defaults = .ok result) (h : valueOf? user name = some value) :
    valueOf? result name = some value := by
  obtain ⟨found, hfound, hlookup⟩ := Option.bind_eq_some_iff.1 h
  cases found with
  | mapping bindings =>
    have hvalue : Mapping.get? bindings name = some value := hlookup
    obtain ⟨added, hget⟩ := exists_bindings_of_addDefaults hrun hfound
    rw [valueOf?, hget]
    change Mapping.get? (Mapping.addAbsent bindings added) name = some value
    rw [Mapping.get?_addAbsent_eq_or, hvalue, Option.some_or]
  | _ =>
    -- Nothing can be added to variables that are no mapping, or one under a tag.
    rw [addDefaults.eq_def, hfound] at hrun
    cases defaults with
    | none =>
      cases hrun
      exact h
    | some value => cases value <;> cases hrun

theorem exists_bindings_of_addDefaults_mapping {added : Mapping}
    (hrun : addDefaults user (some (.mapping added)) = .ok result) :
    ∃ bindings, Mapping.get? result Keyword.bindings = some (.mapping bindings) ∧
      ∀ entry ∈ added, Mapping.hasKey bindings entry.1 := by
  rw [addDefaults.eq_def] at hrun
  cases hget : Mapping.get? user Keyword.bindings with
  | none =>
    rw [hget] at hrun
    cases hrun
    refine ⟨added, by rw [Mapping.get?_append, hget]; rfl, fun entry hentry => ?_⟩
    exact List.any_eq_true.2 ⟨entry, hentry, Value.same_refl entry.1⟩
  | some found =>
    rw [hget] at hrun
    cases found with
    | mapping bindings =>
      cases hrun
      refine ⟨_, Mapping.get?_set_self _ _ _, fun entry hentry => ?_⟩
      exact Mapping.hasKey_addAbsent_of_mem hentry bindings
    | _ => cases hrun

/-! ## What a trait keeps and brings -/

theorem hasKey_applyTrait {key : Value} (hrun : applyTrait traitName fragment user = .ok result)
    (h : Mapping.hasKey user key) : Mapping.hasKey result key := by
  obtain ⟨defaulted, hdefaults, declared, hdeclared, hrun⟩ := applyTrait_eq_ok.1 hrun
  apply declarations_preserve hdeclared (P := (Mapping.hasKey · key)) _ hrun
  · exact Mapping.hasKey_addAbsent_of_hasKey (hasKey_addDefaults hdefaults h) _
  · exact fun path _ value current next hfill => hasKey_fillPath hfill

/-- The variables after a trait are those that its defaults have completed. -/
theorem exists_addDefaults_of_applyTrait (hleaves : LeavesVariables fragment)
    (hrun : applyTrait traitName fragment user = .ok result) :
    ∃ defaulted, addDefaults user (Mapping.get? fragment Keyword.bindings) = .ok defaulted ∧
      Mapping.get? result Keyword.bindings = Mapping.get? defaulted Keyword.bindings := by
  obtain ⟨defaulted, hdefaults, declared, hdeclared, hrun⟩ := applyTrait_eq_ok.1 hrun
  obtain rfl := eq_declarationsOf hdeclared
  refine ⟨defaulted, hdefaults, ?_⟩
  rw [get?_bindings_of_declarations (fun _ hmem _ => hleaves.start_ne hmem) hrun,
    get?_bindings_addAbsent_fieldsOf]

theorem valueOf?_applyTrait {name : String} {value : Value} (hleaves : LeavesVariables fragment)
    (hrun : applyTrait traitName fragment user = .ok result)
    (h : valueOf? user name = some value) : valueOf? result name = some value := by
  obtain ⟨defaulted, hdefaults, hget⟩ := exists_addDefaults_of_applyTrait hleaves hrun
  rw [valueOf?_congr hget]
  exact valueOf?_addDefaults hdefaults h

/-- A trait that succeeds has been absorbed. -/
theorem absorbed_of_applyTrait (hleaves : LeavesVariables fragment)
    (hrun : applyTrait traitName fragment user = .ok result) :
    Absorbed traitName fragment result := by
  obtain ⟨defaulted, hdefaults, hget⟩ := exists_addDefaults_of_applyTrait hleaves hrun
  obtain ⟨defaulted', hdefaults', declared, hdeclared, hfill⟩ := applyTrait_eq_ok.1 hrun
  obtain rfl : defaulted = defaulted' := Except.ok.inj (hdefaults.symm.trans hdefaults')
  obtain rfl := eq_declarationsOf hdeclared
  constructor
  · intro entry hentry
    apply declarations_preserve hdeclared (P := (Mapping.hasKey · entry.1)) _ hfill
    · exact Mapping.hasKey_addAbsent_of_mem hentry _
    · exact fun path _ value current next hstep => hasKey_fillPath hstep
  · intro added hadded
    rw [hadded] at hdefaults
    rw [hget]
    exact exists_bindings_of_addDefaults_mapping hdefaults
  · exact hdeclared
  · intro declaration hmem
    obtain ⟨name, value, paths, hname, hvalue, hpaths⟩ :=
      exists_value_of_declarations (fun _ hmem _ => hleaves.start_ne hmem) hfill hmem
    refine ⟨name, value, paths, hname, ?_, hpaths⟩
    rwa [valueOf?_congr hget, ← valueOf?_congr (get?_bindings_addAbsent_fieldsOf _ fragment)]

/-- What has been absorbed stays so, whichever trait is applied. -/
theorem Absorbed.applyTrait {other : Mapping} {otherName : String}
    (h : Absorbed traitName fragment user) (hleaves : LeavesVariables other)
    (hrun : Fragment.applyTrait otherName other user = .ok result) :
    Absorbed traitName fragment result := by
  constructor
  · exact fun entry hentry => hasKey_applyTrait hrun (h.fields entry hentry)
  · intro added hadded
    obtain ⟨bindings, hbindings, hkeys⟩ := h.defaults added hadded
    obtain ⟨defaulted, hdefaults, hget⟩ := exists_addDefaults_of_applyTrait hleaves hrun
    obtain ⟨further, hfurther⟩ := exists_bindings_of_addDefaults hdefaults hbindings
    refine ⟨_, hget.trans hfurther, fun entry hentry => ?_⟩
    exact Mapping.hasKey_addAbsent_of_hasKey (hkeys entry hentry) further
  · exact h.declared
  · intro declaration hmem
    obtain ⟨name, value, paths, hname, hvalue, hpaths⟩ := h.supplied declaration hmem
    exact ⟨name, value, paths, hname, valueOf?_applyTrait hleaves hrun hvalue, hpaths⟩

/-! ## A trait that has been absorbed -/

theorem Absorbed.addDefaults_eq (h : Absorbed traitName fragment user)
    (hdefaults : BindsByMapping fragment) :
    addDefaults user (Mapping.get? fragment Keyword.bindings) = .ok user := by
  cases hget : Mapping.get? fragment Keyword.bindings with
  | none => rw [addDefaults]
  | some value =>
    obtain ⟨added, rfl⟩ := hdefaults value hget
    obtain ⟨bindings, hbindings, hkeys⟩ := h.defaults added hget
    rw [addDefaults.eq_def, hbindings]
    dsimp only
    rw [Mapping.addAbsent_eq_self hkeys, Mapping.set_eq_self hbindings]

/-- All paths that start at a field of the trait are passed over. -/
theorem Absorbed.fillPath_eq (h : Absorbed traitName fragment user)
    (hstarts : StartsAtFields fragment) {path : String} (hpath : path ∈ declaredPaths fragment)
    (value : Value) :
    fillPath (contributions user (fieldsOf fragment)) value user path = .ok user := by
  have hoverridden : isOverridden (contributions user (fieldsOf fragment)) (start path) :=
    isOverridden_of_forall (hstarts path hpath) fun entry hentry _ => h.fields entry hentry
  rw [Fragment.fillPath_eq, if_pos hoverridden]

/-- A trait that has been absorbed changes nothing. -/
theorem Absorbed.applyTrait_eq (h : Absorbed traitName fragment user)
    (hdefaults : BindsByMapping fragment) (hstarts : StartsAtFields fragment) :
    Fragment.applyTrait traitName fragment user = .ok user := by
  refine applyTrait_eq_ok.2 ⟨user, h.addDefaults_eq hdefaults, _, h.declared, ?_⟩
  rw [Mapping.addAbsent_eq_self h.fields]
  apply Outcome.foldlM_eq_self
  intro declaration hmem
  obtain ⟨name, value, paths, hname, hvalue, hpaths⟩ := h.supplied declaration hmem
  refine fillVariable_eq_ok.2 ⟨name, value, paths, hname, hvalue, hpaths, ?_⟩
  apply Outcome.foldlM_eq_self
  intro path hpath
  have hdeclared : path ∈ declaredPaths fragment := by
    rw [declaredPaths_eq]
    exact List.mem_flatMap.2 ⟨declaration, hmem, by rwa [textsIn_of_targetPaths hpaths]⟩
  exact h.fillPath_eq hstarts hdeclared value

/-! ## Runs -/

/-- A trait among those that have been applied has been absorbed. -/
theorem absorbed_of_foldlM {registry : Registry} {names : List String} {name : String}
    (hget : registry.get? name = some fragment) (hmem : name ∈ names)
    (hleaves : ∀ trait ∈ names, ∀ fragment, registry.get? trait = some fragment →
      LeavesVariables fragment)
    (hrun : names.foldlM (applyNamed registry) user = .ok result) :
    Absorbed name fragment result := by
  refine Outcome.foldlM_establishes (P := Absorbed name fragment) hmem ?_ ?_ hrun
  · intro current next hstep
    obtain ⟨found, hfound, happly⟩ := applyNamed_eq_ok.1 hstep
    obtain rfl : found = fragment := Option.some.inj (hfound.symm.trans hget)
    exact absorbed_of_applyTrait (hleaves name hmem found hfound) happly
  · intro trait htrait current next hstep hcurrent
    obtain ⟨found, hfound, happly⟩ := applyNamed_eq_ok.1 hstep
    exact hcurrent.applyTrait (hleaves trait htrait found hfound) happly

/-- A trait that has been named before can be left out where it is named again. -/
theorem apply_repeated {registry : Registry} {list list' : Value} {before after : List String}
    {name : String} (hlist : Mapping.get? user Keyword.traitList = some list)
    (hnames : ListedAs list (before ++ name :: after)) (hnames' : ListedAs list' (before ++ after))
    (hagain : name ∈ before)
    (hname : ∀ fragment, registry.get? name = some fragment →
      StartsAtFields fragment ∧ BindsByMapping fragment)
    (hleaves : ∀ trait ∈ before ++ name :: after, ∀ fragment,
      registry.get? trait = some fragment → LeavesVariables fragment) :
    apply registry user = apply registry (Mapping.set Keyword.traitList list' user) := by
  rw [apply_eq_of_listedTraits hlist (listedTraits_of_listedAs hnames),
    apply_eq_of_listedTraits (Mapping.get?_set_self _ _ _) (listedTraits_of_listedAs hnames'),
    Mapping.erase_set_self, List.foldlM_append, List.foldlM_append]
  congr 1
  cases hbefore : before.foldlM (applyNamed registry) (Mapping.erase user Keyword.traitList) with
  | error error => rfl
  | ok middle =>
    have hidle : applyNamed registry middle name = .ok middle := by
      obtain ⟨earlier, later, rfl⟩ := List.append_of_mem hagain
      obtain ⟨reached, next, -, hnext, -⟩ := Outcome.exists_of_foldlM_append hbefore
      obtain ⟨fragment, hget, -⟩ := applyNamed_eq_ok.1 hnext
      obtain ⟨hstarts, hdefaults⟩ := hname fragment hget
      have habsorbed : Absorbed name fragment middle :=
        absorbed_of_foldlM hget hagain
          (fun trait htrait => hleaves trait (List.mem_append_left _ htrait)) hbefore
      exact applyNamed_eq_ok.2 ⟨fragment, hget, habsorbed.applyTrait_eq hdefaults hstarts⟩
    rw [Outcome.ok_bind, Outcome.ok_bind, List.foldlM_cons, hidle, Outcome.ok_bind]

/-- A trait that writes into its text, and one that writes into it as well. -/
def noticeRegistry : Registry where
  fragments :=
    [("missing", [(.string "message", .string "No WHAT"),
        (.string Keyword.placeholders, .mapping [(.string "what", .string "message|WHAT")])]),
      ("placed", [(.string Keyword.bindings, .mapping [(.string "place", .string "there")]),
        (.string Keyword.placeholders, .mapping [(.string "place", .string "message|here")])])]

/-- A mapping that uses traits, with a variable that could be written into itself. -/
def noticeUser (traits : List String) : Mapping :=
  [(.string Keyword.traitList, .sequence (traits.map .string)),
    (.string Keyword.bindings, .mapping [(.string "what", .string "WHAT here")])]

theorem apply_repeated_missing :
    apply noticeRegistry (noticeUser ["missing", "placed", "missing"]) =
        apply noticeRegistry (noticeUser ["missing", "placed"]) ∧
      apply noticeRegistry (noticeUser ["missing", "placed"]) =
        .ok [(.string "message", .string "No WHAT there")] := by
  have hnames : ListedAs (.sequence [.string "missing", .string "placed", .string "missing"])
      (["missing", "placed"] ++ "missing" :: []) := .several ["missing", "placed", "missing"]
  have hnames' : ListedAs (.sequence [.string "missing", .string "placed"])
      (["missing", "placed"] ++ []) := .several ["missing", "placed"]
  refine ⟨apply_repeated rfl hnames hnames' (by decide) ?_ ?_, rfl⟩
  · intro fragment hget
    cases hget
    exact ⟨by decide, by rintro _ ⟨⟩⟩
  · intro trait htrait fragment hget
    have hnames : trait = "missing" ∨ trait = "placed" := by
      simp only [List.cons_append, List.nil_append, List.mem_cons, List.not_mem_nil] at htrait
      tauto
    rcases hnames with rfl | rfl <;> cases hget <;> decide

end Routebook.Fragment
