import Routebook.Proofs.Expansion.Lockstep

/-!
# Keeping schemas changes nothing

An expansion that keeps the schemas it has built does the same as one that builds a
schema each time: demands have the same results, and leave the same behind apart from
the schemas.

The schema that has been kept may hold another spelling of the directory than the one
that is asked for.  Both spellings have the same components, and so references start
from the same place.
-/

namespace Routebook

/-- What a context holds apart from the schemas that have been built. -/
def Context.withoutSchemas (context : Context) : Context :=
  { context with schemas := {} }

/-- Whether two contexts differ in nothing but the schemas that have been built. -/
def SameButSchemas (context context' : Context) : Prop :=
  ∃ schemas, context' = { context with schemas }

theorem SameButSchemas.refl (context : Context) : SameButSchemas context context :=
  ⟨context.schemas, rfl⟩

/-- Whether two steps are in lockstep as far as contexts are the same but for the schemas. -/
abbrev LockstepButSchemas {α : Type} (step step' : Expansion α) : Prop :=
  Lockstep SameButSchemas (fun _ => True) step step'

/-- Nothing else in a context depends on the schemas. -/
theorem tied_sameButSchemas : Tied SameButSchemas fun _ => True where
  inclusions_eq := fun ⟨_, h⟩ => h ▸ rfl
  journal_eq := fun ⟨_, h⟩ => h ▸ rfl
  change := fun ⟨schemas, h⟩ _ _ => ⟨schemas, h ▸ rfl⟩
  insert := fun ⟨schemas, h⟩ _ _ => ⟨schemas, h ▸ rfl⟩
  apply_eq := fun ⟨_, h⟩ _ _ => h ▸ rfl

/-- There is no condition on what a run records. -/
theorem Context.records_true (before after : Context) : before.Records (fun _ => True) after :=
  fun _ _ _ _ => trivial

/-- Directories with the same components share a schema, with the spelling that was asked
for first. -/
theorem Schemas.obtain_obtain_of_same (schemas : Schemas) {directory other : Path}
    (h : directory.same other) :
    (schemas.obtain (some directory)).2.obtain (some other) = schemas.obtain (some directory) := by
  have hcomponents : directory.components = other.components := by simpa [Path.same] using h
  have hserves : ∀ schema : Schema,
      schema.servesFor (some other) = schema.servesFor (some directory) := by
    rintro ⟨_ | own⟩
    · rfl
    · simp [Schema.servesFor, Path.same, hcomponents]
  simp only [obtain, hserves]
  cases hfind : schemas.built.find? fun schema => schema.servesFor (some directory) with
  | some schema => simp [hfind]
  | none =>
    have hself : (⟨some directory⟩ : Schema).servesFor (some directory) := by
      simp [Schema.servesFor, Path.same]
    simp [List.find?_append, hfind, hself]

example :
    ((Schemas.obtain {} (some ⟨"conf"⟩)).2.obtain (some ⟨"conf/."⟩)).1 = ⟨some ⟨"conf"⟩⟩ := by
  decide

section Walks

variable {resolver resolver' : Resolver}
  (hresolver : ∀ reference reference', reference.SameFile reference' →
    LockstepButSchemas (resolver reference) (resolver' reference'))

include hresolver

/-- It makes no difference whether the schema for a directory has been kept. -/
theorem lockstep_expand_obtainSchema (directory : Option Path) (value : Value) :
    LockstepButSchemas
      (Expansion.obtainSchema directory >>= fun schema => expand resolver schema value)
      (Provider.fresh directory >>= fun schema => expand resolver' schema value) := by
  -- The schema that is kept starts from the same place, however it is spelled.
  have hwalk : ∀ schemas : Schemas,
      LockstepButSchemas (expand resolver (schemas.obtain directory).1 value)
        (expand resolver' ⟨directory⟩ value) := fun schemas =>
    tied_sameButSchemas.walkable.expand_of_base_eq hresolver
      (base_eq_of_servesFor (schemas.servesFor_obtain directory)) value
  constructor
  · intro context
    rw [Expansion.runFrom_bind, Expansion.runFrom_obtainSchema]
    exact (hwalk context.schemas).journal_suffix
      { context with schemas := (context.schemas.obtain directory).2 }
  · rintro context - ⟨schemas, rfl⟩ -
    rw [Expansion.runFrom_bind, Expansion.runFrom_obtainSchema]
    exact (hwalk context.schemas).runs ⟨schemas, rfl⟩ (Context.records_true _ _)

theorem lockstep_expandTextWith (location : Location) (text : String) :
    LockstepButSchemas (expandTextWith Expansion.obtainSchema resolver location text)
      (expandTextWith Provider.fresh resolver' location text) := by
  apply Tied.lockstep_bind
  · exact Tied.lockstep_ofExcept _
  · exact fun value => lockstep_expand_obtainSchema hresolver location.toPath.parent? value

end Walks

/-! ## Demands -/

/-- Something that a session can be asked for: a call, or to expand a value as one of a
file in a directory. -/
inductive Demand
  | call (call : Call)
  | within (directory : Option Path) (value : Value)

/-- Carry out a demand by the files of a bundle. -/
def Demand.step (bundle : Bundle) : Demand → Expansion (Option Value)
  | .call asked => asked.step bundle
  | .within directory value => expandIn bundle directory value

/-- Carry out a demand, coming by schemas in the given way. -/
def Demand.stepWith (provider : Provider) (bundle : Bundle) : Demand → Expansion (Option Value)
  | .call (.part schema value) => expand (resolveWith provider bundle) schema value
  | .call (.document root) => do
    let entries ← expandRootWith provider bundle root
    return some (.mapping entries)
  | .call (.file reference) => resolveWith provider bundle reference
  | .within directory value => expandInWith provider bundle directory value

theorem Demand.stepWith_obtainSchema (bundle : Bundle) (demand : Demand) :
    demand.stepWith Expansion.obtainSchema bundle = demand.step bundle := by
  rcases demand with (_ | _ | _) | _
  · rw [stepWith, resolveWith_obtainSchema]
    rfl
  · rw [stepWith, expandRootWith_obtainSchema]
    rfl
  · rw [stepWith, resolveWith_obtainSchema]
    rfl
  · exact expandInWith_obtainSchema ..

theorem lockstep_resolveWith_fresh (bundle : Bundle) (reference reference' : Reference)
    (hsame : reference.SameFile reference') :
    LockstepButSchemas (resolveWith Expansion.obtainSchema bundle reference)
      (resolveWith Provider.fresh bundle reference') :=
  tied_sameButSchemas.lockstep_resolveWith lockstep_expandTextWith bundle hsame

theorem lockstep_expandInWith_fresh (bundle : Bundle) (directory : Option Path) (value : Value) :
    LockstepButSchemas (expandInWith Expansion.obtainSchema bundle directory value)
      (expandInWith Provider.fresh bundle directory value) :=
  lockstep_expand_obtainSchema (lockstep_resolveWith_fresh bundle) directory value

/-- The root of a document is expanded in the directory of the context. -/
theorem runFrom_expandRootWith (provider : Provider) (bundle : Bundle) (root : Value)
    (context : Context) :
    (expandRootWith provider bundle root).runFrom context =
      (expandInWith provider bundle context.configDir root >>= rootEntries).runFrom context := rfl

theorem lockstep_expandRootWith_fresh (bundle : Bundle) (root : Value) :
    LockstepButSchemas (expandRootWith Expansion.obtainSchema bundle root)
      (expandRootWith Provider.fresh bundle root) := by
  have hentries : ∀ root, LockstepButSchemas (rootEntries root) (rootEntries root) := by
    intro root
    rw [rootEntries.eq_def]
    split
    all_goals exact Tied.lockstep_ofExcept _
  have hroot : ∀ directory, LockstepButSchemas
      (expandInWith Expansion.obtainSchema bundle directory root >>= rootEntries)
      (expandInWith Provider.fresh bundle directory root >>= rootEntries) := fun directory =>
    Tied.lockstep_bind (lockstep_expandInWith_fresh bundle directory root) hentries
  constructor
  · intro context
    rw [runFrom_expandRootWith]
    exact (hroot context.configDir).journal_suffix context
  · rintro context - ⟨schemas, rfl⟩ hrecords
    rw [runFrom_expandRootWith] at hrecords
    rw [runFrom_expandRootWith, runFrom_expandRootWith]
    exact (hroot context.configDir).runs ⟨schemas, rfl⟩ hrecords

theorem Demand.lockstep_stepWith_fresh (bundle : Bundle) (demand : Demand) :
    LockstepButSchemas (demand.stepWith Expansion.obtainSchema bundle)
      (demand.stepWith Provider.fresh bundle) := by
  rcases demand with (⟨schema, value⟩ | root | reference) | ⟨directory, value⟩
  · exact tied_sameButSchemas.walkable.expand_of_base_eq (lockstep_resolveWith_fresh bundle) rfl
      value
  · exact Tied.lockstep_bind (lockstep_expandRootWith_fresh bundle root) fun _ =>
      Tied.lockstep_ofExcept _
  · exact lockstep_resolveWith_fresh bundle reference reference ⟨rfl, rfl⟩
  · exact lockstep_expandInWith_fresh bundle directory value

/-! ## Sequences of demands -/

/-- The result of each demand and the context that it leaves, where each demand is
carried out by the files of its own bundle. -/
def outcomes (step : Bundle → Demand → Expansion (Option Value)) :
    List (Bundle × Demand) → Context → List (Except Error (Option Value) × Context)
  | [], _ => []
  | (bundle, demand) :: demands, context =>
    let outcome := (step bundle demand).runFrom context
    outcome :: outcomes step demands outcome.2

/-- An outcome apart from the schemas. -/
def withoutSchemas (outcome : Except Error (Option Value) × Context) :
    Except Error (Option Value) × Context :=
  (outcome.1, outcome.2.withoutSchemas)

/-- All demands of a sequence have the same results if a schema is built each time, and
each of them leaves the same traits, inclusions and journal. -/
theorem outcomes_fresh (demands : List (Bundle × Demand)) (context : Context) :
    (outcomes Demand.step demands context).map withoutSchemas =
      (outcomes (Demand.stepWith .fresh) demands context).map withoutSchemas := by
  suffices h : ∀ context context', SameButSchemas context context' →
      (outcomes Demand.step demands context).map withoutSchemas =
        (outcomes (Demand.stepWith .fresh) demands context').map withoutSchemas from
    h context context (.refl context)
  induction demands with
  | nil => exact fun _ _ _ => rfl
  | cons head rest ih =>
    obtain ⟨bundle, demand⟩ := head
    intro context context' hrelated
    have hstep := (demand.lockstep_stepWith_fresh bundle).runs hrelated (Context.records_true _ _)
    rw [demand.stepWith_obtainSchema] at hstep
    obtain ⟨hresult, hafter⟩ := hstep
    have hrest := ih _ _ hafter
    obtain ⟨schemas, hschemas⟩ := hafter
    rw [outcomes, outcomes, List.map_cons, List.map_cons, hrest]
    simp only [withoutSchemas, hresult, hschemas, Context.withoutSchemas]

end Routebook
