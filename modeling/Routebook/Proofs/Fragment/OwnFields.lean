import Routebook.Fragment.Apply
import Routebook.Proofs.Outcome

/-!
# The own fields of a mapping that uses traits

Adding the fields and the default variables of a trait never touches a field
that is there.  Writing variables may: a path is passed over only when the trait
has a field under the very string that the path starts with.  A path that starts
with another name, or with the text of a key that is not a string, writes into
the using mapping's own field.

`Spares` states when no path of a trait does so, and `entryAt?_apply` that a
field keeps its value when all listed traits spare it.  The two runs at the end
show that neither of its conditions can be left out.
-/

namespace Routebook.Fragment

/-- The first segment of a path. -/
def start (path : String) : String :=
  (Text.segments '|' path).headD ""

/-- The string under no tag that a value is. -/
def plainText? : Value → Option String
  | .string text => some text
  | _ => none

/-- The texts that a value gives, alone or in a sequence. -/
def textsIn : Value → List String
  | .string text => [text]
  | .sequence items => items.filterMap plainText?
  | _ => []

/-- The traits that a mapping lists. -/
def listed (user : Mapping) : List String :=
  ((Mapping.get? user Keyword.traitList).map textsIn).getD []

/-- The paths that a fragment declares for its variables. -/
def declaredPaths (fragment : Mapping) : List String :=
  match Mapping.get? fragment Keyword.placeholders with
  | some (.mapping declared) => declared.flatMap fun declaration => textsIn declaration.2
  | _ => []

/-- Whether a fragment has a field under a name, and under no other key that
reads as this name. -/
def Claims (fragment : Mapping) (name : String) : Prop :=
  Mapping.has (fieldsOf fragment) name ∧
    ∀ entry ∈ fieldsOf fragment, entry.1.string? = some name → entry.1.isName name

/-- Whether the paths of a fragment leave a field of the using mapping alone.
For a field under a string the fragment has to have the field as well.  For any
other key it is enough that a field under the string of the same text is there
and catches the path. -/
def Spares (fragment user : Mapping) (key : Value) : Prop :=
  ∀ path ∈ declaredPaths fragment, key.name? = some (start path) →
    match key with
    | .string name => Claims fragment name
    | _ => Mapping.has (fieldsOf fragment) (start path) ∨ Mapping.has user (start path)

/-! ## What is listed and declared is what is carried out -/

theorem filterMap_plainText?_of_mapM {ε : Type} {f : Value → Except ε String}
    (hf : ∀ item text, f item = .ok text → plainText? item = some text) {items : List Value}
    {texts : List String} (hrun : items.mapM f = .ok texts) :
    items.filterMap plainText? = texts := by
  induction items generalizing texts with
  | nil =>
    rw [List.mapM_nil, Outcome.pure_eq_ok] at hrun
    exact hrun
  | cons item rest ih =>
    simp only [List.mapM_cons, Outcome.bind_eq_ok, Outcome.pure_eq_ok] at hrun
    obtain ⟨text, hitem, others, hrest, rfl⟩ := hrun
    rw [List.filterMap_cons_some (hf item text hitem), ih hrest]

theorem textsIn_of_listedTraits {list : Value} {names : List String}
    (hrun : listedTraits list = .ok names) : textsIn list = names := by
  cases list with
  | string only =>
    cases hrun
    rfl
  | sequence items =>
    refine filterMap_plainText?_of_mapM ?_ hrun
    intro item text hitem
    cases item <;> cases hitem
    rfl
  | _ => cases hrun

theorem textsIn_of_targetPaths {traitName label : String} {target : Value}
    {paths : List String} (hrun : targetPaths traitName label target = .ok paths) :
    textsIn target = paths := by
  cases target with
  | string only =>
    cases hrun
    rfl
  | sequence items =>
    refine filterMap_plainText?_of_mapM ?_ hrun
    intro item text hitem
    cases item <;> cases hitem
    rfl
  | _ => cases hrun

theorem mem_declaredPaths {traitName path : String} {fragment declared : Mapping}
    {declaration : Value × Value}
    (hrun : declarations traitName (Mapping.get? fragment Keyword.placeholders) = .ok declared)
    (hdeclaration : declaration ∈ declared) (hpath : path ∈ textsIn declaration.2) :
    path ∈ declaredPaths fragment := by
  rw [declaredPaths]
  cases hget : Mapping.get? fragment Keyword.placeholders with
  | none =>
    rw [hget] at hrun
    cases hrun
    cases hdeclaration
  | some value =>
    rw [hget] at hrun
    cases value with
    | mapping entries =>
      cases hrun
      exact List.mem_flatMap.2 ⟨declaration, hdeclaration, hpath⟩
    | null =>
      cases hrun
      cases hdeclaration
    | _ => cases hrun

theorem listed_of_listedTraits {user : Mapping} {list : Value} {names : List String}
    (hlist : Mapping.get? user Keyword.traitList = some list)
    (hnames : listedTraits list = .ok names) : listed user = names := by
  rw [listed, hlist]
  exact textsIn_of_listedTraits hnames

/-- Applying listed traits is applying them one after the other, between taking out
the list and taking out the variables. -/
theorem apply_eq_of_listedTraits {registry : Registry} {user : Mapping} {list : Value}
    {names : List String} (hlist : Mapping.get? user Keyword.traitList = some list)
    (hnames : listedTraits list = .ok names) :
    apply registry user =
      (names.foldlM (applyNamed registry) (Mapping.erase user Keyword.traitList)).map
        (Mapping.erase · Keyword.bindings) := by
  rw [apply, hlist]
  dsimp only
  rw [hnames]
  cases hfold : names.foldlM (applyNamed registry) (Mapping.erase user Keyword.traitList) <;>
    simp [Except.mapError, bind, Except.bind, pure, Except.pure, Except.map, hfold]

theorem apply_eq_ok {registry : Registry} {user result : Mapping} :
    apply registry user = .ok result ↔
      ∃ list names applied, Mapping.get? user Keyword.traitList = some list ∧
        listedTraits list = .ok names ∧
        names.foldlM (applyNamed registry) (Mapping.erase user Keyword.traitList) = .ok applied ∧
        Mapping.erase applied Keyword.bindings = result := by
  rw [apply]
  cases Mapping.get? user Keyword.traitList with
  | none => simp [throw, throwThe, MonadExceptOf.throw]
  | some list =>
    simp only [Outcome.bind_eq_ok, Outcome.mapError_eq_ok, Outcome.pure_eq_ok]
    constructor
    · rintro ⟨names, hnames, applied, hfold, rfl⟩
      exact ⟨list, names, applied, rfl, hnames, hfold, rfl⟩
    · rintro ⟨_, names, applied, ⟨⟩, hnames, hfold, rfl⟩
      exact ⟨names, hnames, applied, hfold, rfl⟩

theorem exists_of_apply {registry : Registry} {user result : Mapping}
    (hrun : apply registry user = .ok result) :
    ∃ applied, (listed user).foldlM (applyNamed registry)
        (Mapping.erase user Keyword.traitList) = .ok applied ∧
      result = Mapping.erase applied Keyword.bindings := by
  obtain ⟨list, names, applied, hlist, hnames, hfold, rfl⟩ := apply_eq_ok.1 hrun
  rw [listed_of_listedTraits hlist hnames]
  exact ⟨applied, hfold, rfl⟩

theorem applyNamed_eq_ok {registry : Registry} {user result : Mapping} {name : String} :
    applyNamed registry user name = .ok result ↔
      ∃ fragment, registry.get? name = some fragment ∧
        applyTrait name fragment user = .ok result := by
  rw [applyNamed]
  cases registry.get? name <;> simp

theorem applyTrait_eq_ok {traitName : String} {fragment user result : Mapping} :
    applyTrait traitName fragment user = .ok result ↔
      ∃ defaulted, addDefaults user (Mapping.get? fragment Keyword.bindings) = .ok defaulted ∧
        ∃ declared,
          declarations traitName (Mapping.get? fragment Keyword.placeholders) = .ok declared ∧
          declared.foldlM (fillVariable traitName (contributions defaulted (fieldsOf fragment)))
            (Mapping.addAbsent defaulted (fieldsOf fragment)) = .ok result := by
  simp only [applyTrait, Outcome.bind_eq_ok, Outcome.mapError_eq_ok]

theorem fillVariable_eq_ok {traitName : String} {contributed : List (String × Bool)}
    {user result : Mapping} {declaration : Value × Value} :
    fillVariable traitName contributed user declaration = .ok result ↔
      ∃ name value paths, declaration.1.string? = some name ∧ valueOf? user name = some value ∧
        targetPaths traitName name declaration.2 = .ok paths ∧
        paths.foldlM (fillPath contributed value) user = .ok result := by
  rw [fillVariable]
  cases declaration.1.string? with
  | none => simp [throw, throwThe, MonadExceptOf.throw]
  | some name =>
    cases hvalue : valueOf? user name with
    | none => simp [hvalue, throw, throwThe, MonadExceptOf.throw]
    | some value => simp [hvalue, Outcome.bind_eq_ok, Outcome.mapError_eq_ok]

/-! ## One step of applying a trait -/

/-- A path is passed over if fields have its first segment as a key, and if the using
mapping has all keys that read as this segment. -/
theorem isOverridden_of_forall {fields user : Mapping} {name : String}
    (hname : Mapping.has fields name)
    (hall : ∀ entry ∈ fields, entry.1.string? = some name → Mapping.hasKey user entry.1) :
    isOverridden (contributions user fields) name := by
  have hflags : ∀ flag, (name, flag) ∈ contributions user fields → flag = false := by
    intro flag hmem
    obtain ⟨entry, hentry, hread⟩ := List.mem_filterMap.1 hmem
    obtain ⟨text, htext, hpair⟩ := Option.map_eq_some_iff.1 hread
    obtain ⟨rfl, rfl⟩ := Prod.mk.injEq _ _ _ _ ▸ hpair
    rw [hall entry hentry htext]
    rfl
  have hexists : ∃ flag, (name, flag) ∈ contributions user fields := by
    obtain ⟨entry, hentry, hkey⟩ := List.any_eq_true.1 hname
    refine ⟨!Mapping.hasKey user entry.1, List.mem_filterMap.2 ⟨entry, hentry, ?_⟩⟩
    rw [Mapping.eq_string_of_isName hkey]
    rfl
  have hlookup : (contributions user fields).reverse.lookup name = some false := by
    apply Assoc.lookup_eq_some_of_forall
    · simpa using hexists
    · intro flag hflag
      exact hflags flag (List.mem_reverse.1 hflag)
  simp [isOverridden, hlookup]

/-- A path is passed over if the fragment claims the name of a field that the
using mapping has. -/
theorem isOverridden_of_claims {fragment user : Mapping} {name : String}
    (hclaims : Claims fragment name) (huser : Mapping.has user name) :
    isOverridden (contributions user (fieldsOf fragment)) name := by
  refine isOverridden_of_forall hclaims.1 fun entry hentry htext => ?_
  rwa [Mapping.eq_string_of_isName (hclaims.2 entry hentry htext), Mapping.hasKey_string]

variable {user result : Mapping} {key value : Value}

/-- Adding default variables changes the variables of the using mapping at
most. -/
theorem addDefaults_eq_ok {defaults : Option Value}
    (hrun : addDefaults user defaults = .ok result) :
    result = user ∨ (∃ added, result = user ++ [(.string Keyword.bindings, added)]) ∨
      ∃ merged, result = Mapping.set Keyword.bindings merged user := by
  rw [addDefaults.eq_def] at hrun
  split at hrun
  · cases hrun
    exact .inl rfl
  · cases hrun
    exact .inr (.inl ⟨_, rfl⟩)
  · cases hrun
    exact .inr (.inr ⟨_, rfl⟩)
  · cases hrun
    exact .inl rfl
  · cases hrun

theorem entryAt?_addDefaults {defaults : Option Value}
    (hrun : addDefaults user defaults = .ok result)
    (hown : Mapping.entryAt? user key = some (key, value))
    (hkey : key ≠ .string Keyword.bindings) :
    Mapping.entryAt? result key = some (key, value) := by
  rcases addDefaults_eq_ok hrun with rfl | ⟨added, rfl⟩ | ⟨merged, rfl⟩
  · exact hown
  · exact Mapping.entryAt?_append hown _
  · apply Mapping.entryAt?_insert hown
    rw [Mapping.string_same]
    exact Mapping.isName_eq_false hkey

theorem has_addDefaults {defaults : Option Value} {name : String}
    (hrun : addDefaults user defaults = .ok result) (hname : Mapping.has user name) :
    Mapping.has result name := by
  rcases addDefaults_eq_ok hrun with rfl | ⟨added, rfl⟩ | ⟨merged, rfl⟩
  · exact hname
  · rw [Mapping.has_append, hname, Bool.true_or]
  · exact Mapping.has_insert hname _ _

theorem has_fillPath {contributed : List (String × Bool)} {written : Value} {path name : String}
    (hrun : fillPath contributed written user path = .ok result)
    (hname : Mapping.has user name) : Mapping.has result name := by
  rw [fillPath] at hrun
  split at hrun
  · cases hrun
    exact hname
  · rcases writeAlong_eq_ok (Outcome.mapError_eq_ok.1 hrun) with ⟨new, rfl⟩ | ⟨field, rfl⟩
    · rw [setField, Mapping.has_writeFirst, hname]
    · rw [Mapping.has_append, hname, Bool.true_or]

/-- A path that is passed over, or that names another field, leaves a field
alone. -/
theorem entryAt?_fillPath {contributed : List (String × Bool)} {written : Value} {path : String}
    (hrun : fillPath contributed written user path = .ok result)
    (hown : Mapping.entryAt? user key = some (key, value))
    (hspared : isOverridden contributed (start path) ∨ namesKey user (start path) key = false) :
    Mapping.entryAt? result key = some (key, value) := by
  rw [fillPath] at hrun
  split at hrun
  · cases hrun
    exact hown
  · rename_i hnot
    have hnames : namesKey user (start path) key = false :=
      hspared.resolve_left hnot
    rcases writeAlong_eq_ok (Outcome.mapError_eq_ok.1 hrun) with ⟨new, rfl⟩ | ⟨field, rfl⟩
    · exact Mapping.entryAt?_writeFirst hown hnames _
    · exact Mapping.entryAt?_append hown _

/-! ## Applying traits -/

/-- A mapping that has grown from another one still has a field with its value,
and every name that was there. -/
structure Kept (before : Mapping) (key value : Value) (after : Mapping) : Prop where
  entry : Mapping.entryAt? after key = some (key, value)
  names : ∀ name, Mapping.has before name → Mapping.has after name

/-- The paths of a fragment that spares a field pass it over or name another
one. -/
theorem Spares.overridden_or {fragment before current : Mapping} {path : String}
    (hspares : Spares fragment before key) (hdeclares : path ∈ declaredPaths fragment)
    (hown : Mapping.entryAt? user key = some (key, value))
    (hfields : ∀ name, Mapping.has (fieldsOf fragment) name → Mapping.has current name)
    (hnames : ∀ name, Mapping.has before name → Mapping.has current name) :
    isOverridden (contributions user (fieldsOf fragment)) (start path) ∨
      namesKey current (start path) key = false := by
  by_cases hread : key.name? = some (start path)
  · have hspare := hspares path hdeclares hread
    cases key with
    | string name =>
      obtain rfl : name = start path := by simpa [Value.name?, Value.text?] using hread
      have huser : Mapping.has user (start path) := by
        have hmem : (Value.string (start path), value) ∈ user := List.mem_of_find?_eq_some hown
        exact List.any_eq_true.2 ⟨_, hmem, by simp [Value.isName]⟩
      exact .inl (isOverridden_of_claims hspare huser)
    | _ =>
      have hcurrent : Mapping.has current (start path) :=
        hspare.elim (hfields _) (hnames _)
      rw [namesKey_eq_isName hcurrent]
      exact .inr rfl
  · exact .inr (namesKey_eq_false hread)

/-- Writing a variable keeps a field that none of its paths can reach. -/
theorem Kept.fillVariable {traitName : String} {contributed : List (String × Bool)}
    {before : Mapping} {declaration : Value × Value} (hkept : Kept before key value user)
    (hspared : ∀ path ∈ textsIn declaration.2, ∀ current, Kept before key value current →
      isOverridden contributed (start path) ∨ namesKey current (start path) key = false)
    (hrun : Fragment.fillVariable traitName contributed user declaration = .ok result) :
    Kept before key value result := by
  obtain ⟨name, written, paths, -, -, hpaths, hrun⟩ := fillVariable_eq_ok.1 hrun
  refine Outcome.foldlM_preserves ?_ hrun hkept
  intro path hpath current next hfill hcurrent
  have hdeclared : path ∈ textsIn declaration.2 := by
    rwa [textsIn_of_targetPaths hpaths]
  constructor
  · exact entryAt?_fillPath hfill hcurrent.entry (hspared path hdeclared current hcurrent)
  · exact fun name h => has_fillPath hfill (hcurrent.names name h)

theorem Kept.applyTrait {traitName : String} {fragment before : Mapping}
    (hkept : Kept before key value user) (hspares : Spares fragment before key)
    (hkey : key ≠ .string Keyword.bindings)
    (hrun : Fragment.applyTrait traitName fragment user = .ok result) :
    Kept before key value result := by
  obtain ⟨defaulted, hdefaults, declared, hdeclared, hrun⟩ := applyTrait_eq_ok.1 hrun
  have hown : Mapping.entryAt? defaulted key = some (key, value) :=
    entryAt?_addDefaults hdefaults hkept.entry hkey
  -- From here on every field of the fragment is there, be it as the own field.
  have hmerged : Kept (Mapping.addAbsent defaulted (fieldsOf fragment)) key value
      (Mapping.addAbsent defaulted (fieldsOf fragment)) :=
    ⟨Mapping.entryAt?_addAbsent hown _, fun _ h => h⟩
  have hbefore : ∀ name, Mapping.has before name →
      Mapping.has (Mapping.addAbsent defaulted (fieldsOf fragment)) name := by
    intro name hname
    exact Mapping.has_addAbsent_of_has (has_addDefaults hdefaults (hkept.names name hname)) _
  have hfilled : Kept (Mapping.addAbsent defaulted (fieldsOf fragment)) key value result := by
    refine Outcome.foldlM_preserves ?_ hrun hmerged
    intro declaration hmem current next hstep hcurrent
    refine hcurrent.fillVariable ?_ hstep
    intro path hpath middle hmiddle
    apply hspares.overridden_or (mem_declaredPaths hdeclared hmem hpath) hown
    · exact fun name h => hmiddle.names name (Mapping.has_addAbsent h _)
    · exact fun name h => hmiddle.names name (hbefore name h)
  exact ⟨hfilled.entry, fun name h => hfilled.names name (hbefore name h)⟩

/-- A field of a mapping keeps its value when traits are applied that spare it. -/
theorem entryAt?_apply {registry : Registry}
    (hrun : apply registry user = .ok result)
    (hown : Mapping.entryAt? user key = some (key, value))
    (hlist : key ≠ .string Keyword.traitList) (hbindings : key ≠ .string Keyword.bindings)
    (hspares : ∀ name ∈ listed user, ∀ fragment, registry.get? name = some fragment →
      Spares fragment (Mapping.erase user Keyword.traitList) key) :
    Mapping.entryAt? result key = some (key, value) := by
  obtain ⟨applied, hfold, rfl⟩ := exists_of_apply hrun
  have hstart : Kept (Mapping.erase user Keyword.traitList) key value
      (Mapping.erase user Keyword.traitList) :=
    ⟨Mapping.entryAt?_erase hown (Mapping.isName_eq_false hlist), fun _ h => h⟩
  have hkept : Kept (Mapping.erase user Keyword.traitList) key value applied := by
    refine Outcome.foldlM_preserves ?_ hfold hstart
    intro name hname current next hstep hcurrent
    obtain ⟨fragment, hfragment, happly⟩ := applyNamed_eq_ok.1 hstep
    exact hcurrent.applyTrait (hspares name hname fragment hfragment) hbindings happly
  exact Mapping.entryAt?_erase hkept.entry (Mapping.isName_eq_false hbindings)

/-- A trait with some fields that writes the variable `token` into `header`. -/
def authTrait (fields : Mapping) : Mapping :=
  fields ++ [(.string Keyword.placeholders, .mapping [(.string "token", .string "header")])]

/-- A mapping with a field `header` that uses the trait `auth`. -/
def authUser : Mapping :=
  [(.string Keyword.traitList, .string "auth"), (.string "header", .string "Mine"),
    (.string Keyword.bindings, .mapping [(.string "token", .string "abc")])]

/-- The field is kept if the trait has it as well. -/
theorem entryAt?_apply_header :
    ∃ result,
      apply ⟨[("auth", authTrait [(.string "header", .string "X-Token")])]⟩ authUser =
        .ok result ∧
      Mapping.entryAt? result (.string "header") = some (.string "header", .string "Mine") := by
  have hrun : apply ⟨[("auth", authTrait [(.string "header", .string "X-Token")])]⟩ authUser =
      .ok [(.string "header", .string "Mine")] := rfl
  have hown : Mapping.entryAt? authUser (.string "header") =
      some (.string "header", .string "Mine") := rfl
  refine ⟨_, hrun, entryAt?_apply hrun hown ?_ ?_ ?_⟩
  · simp [Keyword.traitList]
  · simp [Keyword.bindings]
  · intro name hname fragment hfragment path _ _
    obtain rfl : name = "auth" := List.mem_singleton.1 hname
    cases hfragment
    exact ⟨rfl, by decide⟩

/-- The field is lost if the trait does not have it. -/
example : apply ⟨[("auth", authTrait [])]⟩ authUser = .ok [(.string "header", .string "abc")] :=
  rfl

/-- A field under a number is lost although the trait has it as well: the fields
of a trait are taken down under their strings. -/
theorem apply_number_field :
    apply ⟨[("missing", [(.number (.int 404), .string "No such THING"),
          (.string Keyword.placeholders, .mapping [(.string "thing", .string "404|THING")])])]⟩
        [(.string Keyword.traitList, .string "missing"),
          (.number (.int 404), .string "Keep THING"),
          (.string Keyword.bindings, .mapping [(.string "thing", .string "user")])] =
      .ok [(.number (.int 404), .string "Keep user")] :=
  rfl

end Routebook.Fragment
