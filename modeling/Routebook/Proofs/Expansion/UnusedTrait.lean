import Routebook.Proofs.Expansion.Lockstep

/-!
# Traits that nothing uses

What is defined under a name matters only where a mapping lists the name.  Two runs
that start from contexts with different definitions of it, at different places or
missing in one of them, do the same as long as no mapping that uses traits lists the
name.
-/

namespace Routebook

/-- Whether a mapping that uses traits lists a name among them. -/
def Fragment.Lists (name : String) (body : Mapping) : Prop :=
  ∃ list names, Mapping.get? body Keyword.traitList = some list ∧
    listedTraits list = .ok names ∧ name ∈ names

namespace Registry

/-- What is defined under other names. -/
def without (registry : Registry) (name : String) : Registry :=
  ⟨registry.fragments.filter fun entry => entry.1 ≠ name⟩

variable {registry registry' : Registry} {name other : String}

theorem get?_without (h : other ≠ name) (registry : Registry) :
    (registry.without name).get? other = registry.get? other :=
  Assoc.lookup_filter_of_ne h _

theorem without_insert_self (registry : Registry) (name : String) (fragment : Mapping) :
    (registry.insert name fragment).without name = registry.without name := by
  simp only [without, insert, Assoc.filter_put_self]

theorem without_insert (h : other ≠ name) (registry : Registry) (fragment : Mapping) :
    (registry.insert other fragment).without name =
      (registry.without name).insert other fragment := by
  simp only [without, insert, Assoc.filter_put_of_ne h]

/-- Defining a trait on both sides keeps the other names equal, whichever it is. -/
theorem without_insert_congr (h : registry.without name = registry'.without name)
    (other : String) (fragment : Mapping) :
    (registry.insert other fragment).without name =
      (registry'.insert other fragment).without name := by
  by_cases hother : other = name
  · subst hother
    rw [without_insert_self, without_insert_self, h]
  · rw [without_insert hother, without_insert hother, h]

end Registry

namespace Fragment

variable {registry registry' : Registry} {name : String}

/-- Traits are applied in the same way if those that are listed are the same. -/
theorem foldlM_applyNamed_congr {names : List String}
    (h : ∀ name ∈ names, registry.get? name = registry'.get? name) (user : Mapping) :
    names.foldlM (applyNamed registry) user = names.foldlM (applyNamed registry') user := by
  induction names generalizing user with
  | nil => rfl
  | cons first rest ih =>
    have hfirst : applyNamed registry user first = applyNamed registry' user first := by
      rw [applyNamed, applyNamed, h first List.mem_cons_self]
    rw [List.foldlM_cons, List.foldlM_cons, hfirst]
    congr 1
    funext user
    exact ih (fun name hname => h name (List.mem_cons_of_mem _ hname)) user

/-- A trait that a mapping does not list has no influence on what comes out of it. -/
theorem apply_congr (h : registry.without name = registry'.without name) {body : Mapping}
    (hbody : ¬ Lists name body) : apply registry body = apply registry' body := by
  rw [apply, apply]
  cases hlist : Mapping.get? body Keyword.traitList with
  | none => rfl
  | some list =>
    dsimp only
    cases hnames : listedTraits list with
    | error fault => rfl
    | ok names =>
      have hsame : ∀ other ∈ names, registry.get? other = registry'.get? other := by
        intro other hother
        have hne : other ≠ name := fun heq => hbody ⟨list, names, hlist, hnames, heq ▸ hother⟩
        rw [← Registry.get?_without hne, h, Registry.get?_without hne]
      simp only [Except.mapError, bind, Except.bind, foldlM_applyNamed_congr hsame]

end Fragment

/-- Whether two contexts are equal except for what is defined under a name and where it
stands among the definitions. -/
structure AgreeBut (name : String) (context context' : Context) : Prop where
  registry : context.registry.without name = context'.registry.without name
  others : context' = { context with registry := context'.registry }

/-- A step at which no mapping uses a trait of the given name. -/
def Event.Unused (name : String) : Event → Prop
  | .used body => ¬ Fragment.Lists name body
  | _ => True

section Runs

variable (name : String)

/-- What is defined under a name has no influence on what else a context holds. -/
theorem tied_agreeBut : Tied (AgreeBut name) (Event.Unused name) where
  inclusions_eq h := h.others ▸ rfl
  journal_eq h := h.others ▸ rfl
  change h _ _ := ⟨h.registry, h.others ▸ rfl⟩
  insert h other fragment :=
    ⟨Registry.without_insert_congr h.registry other fragment, h.others ▸ rfl⟩
  apply_eq h _ hbody := Fragment.apply_congr h.registry hbody

theorem lockstep_agreeBut_obtainSchema (directory : Option Path) :
    Lockstep (AgreeBut name) (Event.Unused name) (Expansion.obtainSchema directory)
      (Expansion.obtainSchema directory) where
  journal_suffix _ := List.suffix_refl _
  runs {context context'} h _ := by
    have hschemas : context'.schemas = context.schemas := h.others ▸ rfl
    rw [Expansion.runFrom_obtainSchema, Expansion.runFrom_obtainSchema, hschemas]
    exact ⟨rfl, h.registry, h.others ▸ rfl⟩

theorem lockstep_agreeBut_resolve (bundle : Bundle) (reference reference' : Reference)
    (hsame : reference.SameFile reference') :
    Lockstep (AgreeBut name) (Event.Unused name) (resolve bundle reference)
      (resolve bundle reference') := by
  rw [← resolveWith_obtainSchema]
  apply (tied_agreeBut name).lockstep_resolveWith _ bundle hsame
  intro resolver resolver' hresolver location text
  apply Tied.lockstep_bind (Tied.lockstep_ofExcept _)
  intro root
  apply Tied.lockstep_bind (lockstep_agreeBut_obtainSchema name _)
  intro schema
  exact (tied_agreeBut name).walkable.expand_of_base_eq hresolver rfl root

end Runs

/-- What is defined under a name has no influence on the expansion of a value, and on what
the expansion leaves behind, if no mapping that uses traits lists the name.  It is enough
that none does so in one of the two runs. -/
theorem expand_agreeBut {name : String} {context context' : Context}
    (h : AgreeBut name context context') (bundle : Bundle) (schema : Schema) (value : Value)
    (hunused : context.Records (Event.Unused name)
      ((expand (resolve bundle) schema value).runFrom context).2) :
    let run := (expand (resolve bundle) schema value).runFrom context
    let run' := (expand (resolve bundle) schema value).runFrom context'
    run.1 = run'.1 ∧ AgreeBut name run.2 run'.2 := by
  have hlockstep : Lockstep (AgreeBut name) (Event.Unused name)
      (expand (resolve bundle) schema value) (expand (resolve bundle) schema value) :=
    (tied_agreeBut name).walkable.expand_of_base_eq (lockstep_agreeBut_resolve name bundle) rfl
      value
  exact hlockstep.runs h hunused

/-- A context with traits. -/
def Context.withTraits (fragments : List (String × Mapping)) : Context :=
  { registry := ⟨fragments⟩ }

/-- A mapping that uses one trait, and a definition of another one. -/
def jsonRoutes : Value :=
  .mapping [
    (.string "users", .tagged ⟨"use"⟩ (.mapping [(.string ".traits", .string "json")])),
    (.string "later", .tagged ⟨"define"⟩ (.mapping [(.string ".trait", .string "auth")]))]

def jsonTrait : Mapping :=
  [(.string "title", .string "JSON")]

def authTrait : Mapping :=
  [(.string "header", .string "X-Token")]

/-- A trait that had been defined before keeps its place when it is defined again; a new
one goes to the end. -/
theorem expand_agreeBut_redefined :
    let run := (expand (resolve {}) ⟨none⟩ jsonRoutes).runFrom (.withTraits [("json", jsonTrait)])
    let run' := (expand (resolve {}) ⟨none⟩ jsonRoutes).runFrom
      (.withTraits [("auth", authTrait), ("json", jsonTrait)])
    run.1 = .ok (some (.mapping [(.string "users", .mapping jsonTrait)])) ∧ run'.1 = run.1 ∧
      AgreeBut "auth" run.2 run'.2 ∧ run.2.registry.names = ["json", "auth"] ∧
      run'.2.registry.names = ["auth", "json"] := by
  have hagree : AgreeBut "auth" (.withTraits [("json", jsonTrait)])
      (.withTraits [("auth", authTrait), ("json", jsonTrait)]) := ⟨rfl, rfl⟩
  have hunused : Context.Records (Event.Unused "auth") (.withTraits [("json", jsonTrait)])
      ((expand (resolve {}) ⟨none⟩ jsonRoutes).runFrom
        (.withTraits [("json", jsonTrait)])).2 := by
    intro new hnew event hevent
    have hjournal : [.used [(.string ".traits", .string "json")]] = new ++ [] := hnew
    rw [List.append_nil] at hjournal
    obtain rfl := List.mem_singleton.1 (hjournal ▸ hevent)
    rintro ⟨list, names, hlist, hnames, hname⟩
    cases hlist
    cases hnames
    simp at hname
  obtain ⟨hresult, hafter⟩ := expand_agreeBut hagree {} ⟨none⟩ jsonRoutes hunused
  exact ⟨rfl, hresult.symm, hafter, rfl, rfl⟩

end Routebook
