import Routebook.Proofs.Fragment.OwnFields

/-!
# Traits without placeholders are united

Applying traits that declare no placeholders is a union of fields: the mapping's own
ones come first, then those of the traits in the order of the list, and of two fields
under one key the earlier one is kept.  The variables come and go in between, but
they are taken out again without a trace, wherever they stood and whichever trait
brought some.

The order of the union is the order in which the routes of a document come.
-/

namespace Routebook.Fragment

/-- Whether a value lists names: as one string or as a sequence of strings. -/
inductive ListedAs : Value → List String → Prop
  | one (name : String) : ListedAs (.string name) [name]
  | several (names : List String) : ListedAs (.sequence (names.map .string)) names

/-- Whether the variables of a mapping, if it has any, are a mapping. -/
def BindsByMapping (entries : Mapping) : Prop :=
  ∀ value, Mapping.get? entries Keyword.bindings = some value →
    ∃ bindings, value = .mapping bindings

/-- Whether a fragment declares no placeholders, and its default variables are a
mapping. -/
structure Unparametrized (fragment : Mapping) : Prop where
  placeholders : ∀ value, Mapping.get? fragment Keyword.placeholders = some value → value = .null
  bindings : BindsByMapping fragment

/-- The fields that the traits of the given names offer, one trait after the other. -/
def offered (registry : Registry) (names : List String) : Mapping :=
  names.flatMap fun name => ((registry.get? name).map fieldsOf).getD []

/-- The own fields of a mapping, and of those that traits offer the ones whose keys
are neither among them nor offered before. -/
def union (registry : Registry) (user : Mapping) (names : List String) : Mapping :=
  let own := Mapping.erase (Mapping.erase user Keyword.traitList) Keyword.bindings
  own ++ ((offered registry names).filter fun entry => !Mapping.hasKey own entry.1).eraseDupsBy
    fun entry earlier => entry.1.same earlier.1

/-! ## The list of traits -/

theorem mapM_listedName {ε : Type} {f : Value → Except ε String}
    (hf : ∀ name, f (.string name) = .ok name) (names : List String) :
    (names.map Value.string).mapM f = .ok names := by
  induction names with
  | nil => rfl
  | cons name rest ih =>
    rw [List.map_cons, List.mapM_cons, hf, ih]
    rfl

theorem listedTraits_of_listedAs {list : Value} {names : List String} (h : ListedAs list names) :
    listedTraits list = .ok names := by
  cases h with
  | one name => rfl
  | several names => exact mapM_listedName (fun _ => rfl) names

/-! ## One trait -/

section Traits

variable {user fragment : Mapping}

theorem has_fieldsOf_bindings (fragment : Mapping) :
    Mapping.has (fieldsOf fragment) Keyword.bindings = false :=
  Mapping.has_erase_self _ _

/-- Default variables that are a mapping can be added to variables that are one, and
change nothing else. -/
theorem exists_addDefaults (huser : BindsByMapping user) {defaults : Option Value}
    (hdefaults : ∀ value, defaults = some value → ∃ bindings, value = .mapping bindings) :
    ∃ result, addDefaults user defaults = .ok result ∧ BindsByMapping result ∧
      Mapping.erase result Keyword.bindings = Mapping.erase user Keyword.bindings := by
  cases defaults with
  | none => exact ⟨user, rfl, huser, rfl⟩
  | some value =>
    obtain ⟨added, rfl⟩ := hdefaults value rfl
    cases hget : Mapping.get? user Keyword.bindings with
    | none =>
      refine ⟨user ++ [(.string Keyword.bindings, .mapping added)],
        by rw [addDefaults.eq_def, hget], ?_, ?_⟩
      · rw [BindsByMapping, Mapping.get?_append, hget]
        rintro value ⟨⟩
        exact ⟨added, rfl⟩
      · simp [Mapping.erase, List.filter_append, Value.isName]
    | some value =>
      obtain ⟨bindings, rfl⟩ := huser value hget
      refine ⟨_, by rw [addDefaults.eq_def, hget], ?_, Mapping.erase_set_self _ _ _⟩
      intro value hvalue
      rw [Mapping.get?_set_self] at hvalue
      exact ⟨_, (Option.some.inj hvalue).symm⟩

/-- A trait without placeholders adds its fields where they are absent. -/
theorem exists_applyTrait (huser : BindsByMapping user) (hfragment : Unparametrized fragment)
    (traitName : String) :
    ∃ result, applyTrait traitName fragment user = .ok result ∧ BindsByMapping result ∧
      Mapping.erase result Keyword.bindings =
        Mapping.addAbsent (Mapping.erase user Keyword.bindings) (fieldsOf fragment) := by
  obtain ⟨defaulted, hdefaults, hbinds, herase⟩ := exists_addDefaults huser hfragment.bindings
  have hdeclared :
      declarations traitName (Mapping.get? fragment Keyword.placeholders) = .ok [] := by
    cases hget : Mapping.get? fragment Keyword.placeholders with
    | none => rfl
    | some value => rw [hfragment.placeholders value hget, declarations]
  refine ⟨Mapping.addAbsent defaulted (fieldsOf fragment), ?_, ?_, ?_⟩
  · rw [applyTrait, hdefaults, hdeclared]
    rfl
  · rw [BindsByMapping, Mapping.get?_addAbsent (has_fieldsOf_bindings fragment)]
    exact hbinds
  · rw [Mapping.erase_addAbsent (has_fieldsOf_bindings fragment), herase]

end Traits

/-! ## All traits -/

section Runs

variable {registry : Registry} {names : List String} {user : Mapping}

/-- Traits that are all registered add what they offer. -/
theorem exists_foldlM_applyNamed (huser : BindsByMapping user)
    (hnames : ∀ name ∈ names, ∃ fragment, registry.get? name = some fragment ∧
      Unparametrized fragment) :
    ∃ result, names.foldlM (applyNamed registry) user = .ok result ∧ BindsByMapping result ∧
      Mapping.erase result Keyword.bindings =
        Mapping.addAbsent (Mapping.erase user Keyword.bindings) (offered registry names) := by
  induction names generalizing user with
  | nil => exact ⟨user, rfl, huser, rfl⟩
  | cons name rest ih =>
    rw [List.forall_mem_cons] at hnames
    obtain ⟨⟨fragment, hget, hfragment⟩, hrest⟩ := hnames
    obtain ⟨middle, hmiddle, hbinds, herase⟩ := exists_applyTrait huser hfragment name
    obtain ⟨result, hresult, hbinds', herase'⟩ := ih hbinds hrest
    refine ⟨result, ?_, hbinds', ?_⟩
    · rw [List.foldlM_cons, applyNamed_eq_ok.2 ⟨fragment, hget, hmiddle⟩]
      exact hresult
    · rw [herase', herase, ← Mapping.addAbsent_append]
      simp [offered, hget]

/-- The first trait that is not registered ends the application. -/
theorem foldlM_applyNamed_of_missing {missing : String} (huser : BindsByMapping user)
    (hnames : ∀ name ∈ names, ∀ fragment, registry.get? name = some fragment →
      Unparametrized fragment)
    (hmissing : names.find? (fun name => (registry.get? name).isNone) = some missing) :
    names.foldlM (applyNamed registry) user = .error (.traitNotFound missing) := by
  obtain ⟨hnone, before, after, rfl, hbefore⟩ := List.find?_eq_some_iff_append.1 hmissing
  have hall : ∀ name ∈ before, ∃ fragment, registry.get? name = some fragment ∧
      Unparametrized fragment := by
    intro name hname
    obtain ⟨fragment, hget⟩ := Option.isSome_iff_exists.1 (by simpa using hbefore name hname)
    exact ⟨fragment, hget, hnames name (List.mem_append_left _ hname) fragment hget⟩
  obtain ⟨middle, hmiddle, -⟩ := exists_foldlM_applyNamed huser hall
  have hstop : applyNamed registry middle missing = .error (.traitNotFound missing) := by
    rw [applyNamed, Option.isNone_iff_eq_none.1 hnone]
  rw [List.foldlM_append, hmiddle]
  change (missing :: after).foldlM (applyNamed registry) middle = _
  rw [List.foldlM_cons, hstop]
  rfl

end Runs

/-- Applying traits without placeholders unites the fields, or reports the first
trait of the list that is not registered. -/
theorem apply_union {registry : Registry} {user : Mapping} {list : Value} {names : List String}
    (hlist : Mapping.get? user Keyword.traitList = some list) (hnames : ListedAs list names)
    (huser : BindsByMapping user)
    (htraits : ∀ name ∈ names, ∀ fragment, registry.get? name = some fragment →
      Unparametrized fragment) :
    apply registry user =
      match names.find? fun name => (registry.get? name).isNone with
      | some missing => .error (.traitNotFound missing)
      | none => .ok (union registry user names) := by
  have hne : Keyword.traitList ≠ Keyword.bindings := by decide
  have hown : BindsByMapping (Mapping.erase user Keyword.traitList) := by
    rw [BindsByMapping, Mapping.get?_erase_of_ne hne]
    exact huser
  rw [apply, hlist]
  dsimp only
  rw [listedTraits_of_listedAs hnames]
  cases hmissing : names.find? fun name => (registry.get? name).isNone with
  | some missing =>
    have hfold := foldlM_applyNamed_of_missing hown htraits hmissing
    simp [Except.mapError, bind, Except.bind, hfold]
  | none =>
    have hall : ∀ name ∈ names, ∃ fragment, registry.get? name = some fragment ∧
        Unparametrized fragment := by
      intro name hname
      have hregistered := List.find?_eq_none.1 hmissing name hname
      obtain ⟨fragment, hget⟩ := Option.ne_none_iff_exists'.1 (by simpa using hregistered)
      exact ⟨fragment, hget, htraits name hname fragment hget⟩
    obtain ⟨result, hresult, -, herase⟩ := exists_foldlM_applyNamed hown hall
    rw [Mapping.addAbsent_eq_append] at herase
    simp [Except.mapError, bind, Except.bind, pure, Except.pure, hresult, herase, union]

/-- Two traits with a field and a variable in common. -/
def pagedRegistry : Registry where
  fragments :=
    [("paged", [(.string Keyword.bindings, .mapping [(.string "size", .number (.int 20))]),
        (.string "limit", .number (.int 20)), (.number (.int 404), .string "No page")]),
      ("listed", [(.string "limit", .number (.int 50)), (.string Keyword.placeholders, .null),
        (.string Keyword.bindings, .mapping [(.string "size", .number (.int 50))]),
        (.string "sorted", .bool true)])]

/-- A mapping that uses them and has one of the fields of its own. -/
def pagedUser : Mapping :=
  [(.string "title", .string "Users"), (.string Keyword.traitList,
      .sequence [.string "paged", .string "listed"]), (.string "sorted", .bool false)]

theorem apply_union_paged :
    apply pagedRegistry pagedUser =
      .ok [(.string "title", .string "Users"), (.string "sorted", .bool false),
        (.string "limit", .number (.int 20)), (.number (.int 404), .string "No page")] := by
  have hnames : ListedAs (.sequence [.string "paged", .string "listed"]) ["paged", "listed"] :=
    .several ["paged", "listed"]
  rw [apply_union rfl hnames (by rintro _ ⟨⟩) ?_]
  · rfl
  · intro name hname fragment hget
    simp only [List.mem_cons, List.not_mem_nil, or_false] at hname
    rcases hname with rfl | rfl
    · cases hget
      exact ⟨by rintro _ ⟨⟩, by rintro _ ⟨⟩; exact ⟨_, rfl⟩⟩
    · cases hget
      exact ⟨by rintro _ ⟨⟩; rfl, by rintro _ ⟨⟩; exact ⟨_, rfl⟩⟩

end Routebook.Fragment
