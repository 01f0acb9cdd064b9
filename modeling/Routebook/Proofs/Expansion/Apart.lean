import Routebook.Proofs.Expansion.Recursion
import Routebook.Proofs.Path.Parent

/-!
# Runs that agree apart from one file

Two runs may differ in what they remember about one file, and in how they have
come to their schemas.  As long as the second run does not meet the file, the
same steps have the same results in both, and leave the same behind apart from
the file.

References that lead to the same file from directories that are written in
different ways count as the same step.
-/

namespace Routebook

/-- Whether two contexts agree on the traits, and on all included files but one. -/
structure AgreeApart (location : Location) (context context' : Context) : Prop where
  registry : context.registry = context'.registry
  inclusions : context.inclusions.without location = context'.inclusions.without location

/-- Whether two steps have the same result from two contexts and leave contexts
that agree apart from a file, provided that the second one leaves it unknown. -/
def AlikeAt (location : Location) (context context' : Context) {α : Type}
    (step step' : Expansion α) : Prop :=
  (step'.runFrom context').2.inclusions.progress? location = none →
    (step.runFrom context).1 = (step'.runFrom context').1 ∧
      AgreeApart location (step.runFrom context).2 (step'.runFrom context').2

/-- Whether two steps do the same from all contexts that agree apart from a file. -/
structure Alike (location : Location) {α : Type} (step step' : Expansion α) : Prop where
  unknown_before : ∀ context,
    (step'.runFrom context).2.inclusions.progress? location = none →
      context.inclusions.progress? location = none
  alikeAt : ∀ {context context'}, AgreeApart location context context' →
    AlikeAt location context context' step step'

section Steps

variable {location : Location} {α β : Type} {context context' : Context}

theorem AgreeApart.refl (location : Location) (context : Context) :
    AgreeApart location context context :=
  ⟨rfl, rfl⟩

theorem AgreeApart.progress?_eq (h : AgreeApart location context context')
    {other : Location} (hother : other ≠ location) :
    context.inclusions.progress? other = context'.inclusions.progress? other := by
  rw [← Inclusions.progress?_without hother, h.inclusions,
    Inclusions.progress?_without hother]

theorem alikeAt_bind {step step' : Expansion α} {next next' : α → Expansion β}
    (hstep : AlikeAt location context context' step step')
    (hnext : ∀ result, Alike location (next result) (next' result)) :
    AlikeAt location context context' (step >>= next) (step' >>= next') := by
  intro hafter
  rw [Expansion.runFrom_bind] at hafter
  rw [Expansion.runFrom_bind, Expansion.runFrom_bind]
  rcases hrun' : step'.runFrom context' with ⟨outcome', after'⟩
  rw [AlikeAt, hrun'] at hstep
  rw [hrun'] at hafter
  cases outcome' with
  | error error =>
    obtain ⟨hsame, hagree⟩ := hstep hafter
    rcases hrun : step.runFrom context with ⟨outcome, after⟩
    rw [hrun] at hsame hagree
    obtain rfl : outcome = .error error := hsame
    exact ⟨rfl, hagree⟩
  | ok result =>
    -- The file is unknown in the middle, because it is at the end.
    obtain ⟨hsame, hagree⟩ := hstep ((hnext result).unknown_before after' hafter)
    rcases hrun : step.runFrom context with ⟨outcome, after⟩
    rw [hrun] at hsame hagree
    obtain rfl : outcome = .ok result := hsame
    exact (hnext result).alikeAt hagree hafter

/-- Steps that begin in the same way from one context. -/
theorem alikeAt_bind_same {step : Expansion α} {next next' : α → Expansion β}
    (hnext : ∀ result after, step.runFrom context = (.ok result, after) →
      AlikeAt location after after (next result) (next' result)) :
    AlikeAt location context context (step >>= next) (step >>= next') := by
  intro hafter
  rw [Expansion.runFrom_bind] at hafter
  rw [Expansion.runFrom_bind, Expansion.runFrom_bind]
  rcases hrun : step.runFrom context with ⟨outcome, after⟩
  rw [hrun] at hafter
  cases outcome with
  | error error => exact ⟨rfl, .refl location after⟩
  | ok result => exact hnext result after hrun hafter

theorem alike_bind {step step' : Expansion α} {next next' : α → Expansion β}
    (hstep : Alike location step step')
    (hnext : ∀ result, Alike location (next result) (next' result)) :
    Alike location (step >>= next) (step' >>= next') where
  unknown_before context hafter := by
    rw [Expansion.runFrom_bind] at hafter
    apply hstep.unknown_before context
    rcases hrun : step'.runFrom context with ⟨outcome, after⟩
    rw [hrun] at hafter
    cases outcome with
    | error error => exact hafter
    | ok result => exact (hnext result).unknown_before after hafter
  alikeAt hagree := alikeAt_bind (hstep.alikeAt hagree) hnext

theorem alike_walkable : Walkable (Alike location) where
  ofExcept _ := ⟨fun _ => id, fun hagree _ => ⟨rfl, hagree⟩⟩
  bind := alike_bind
  define body := by
    refine ⟨fun context hafter => ?_, fun {context context'} hagree _ => ?_⟩
    · exact (@traces_define [] body).progress?_eq_none hafter
    · rw [Expansion.runFrom_define, Expansion.runFrom_define, hagree.registry]
      split
      · exact ⟨rfl, rfl, hagree.inclusions⟩
      · exact ⟨rfl, hagree⟩
  applyTraits body := by
    refine ⟨fun context hafter => ?_, fun {context context'} hagree _ => ?_⟩
    · exact (@traces_applyTraits [] body).progress?_eq_none hafter
    · rw [Expansion.runFrom_applyTraits, Expansion.runFrom_applyTraits, hagree.registry]
      exact ⟨rfl, ⟨rfl, hagree.inclusions⟩⟩

end Steps

/-! ## Resolving references -/

/-- Whether two references ask for the same file in the same way. -/
structure Reference.SameFile (reference reference' : Reference) : Prop where
  location : reference.location = reference'.location
  pathless : reference.pathless = reference'.pathless

theorem base_eq_of_servesFor {schema : Schema} {directory : Option Path}
    (h : schema.servesFor directory) :
    Location.base schema.directory = Location.base directory := by
  obtain ⟨own⟩ := schema
  cases own <;> cases directory
  · rfl
  · cases h
  · cases h
  · exact Location.base_eq_of_same h

/-- Values are expanded in the same way by schemas of the same place. -/
theorem Walkable.expand_of_base_eq {R : ∀ {α : Type}, Expansion α → Expansion α → Prop}
    (hR : Walkable R) {resolver resolver' : Resolver}
    (hresolver : ∀ reference reference', reference.SameFile reference' →
      R (resolver reference) (resolver' reference')) {schema schema' : Schema}
    (h : Location.base schema.directory = Location.base schema'.directory)
    (value : Value) :
    R (Routebook.expand resolver schema value)
      (Routebook.expand resolver' schema' value) := by
  refine hR.expand ?_ value
  intro file pathless
  apply hresolver
  refine ⟨?_, rfl⟩
  rw [Reference.location, Reference.location, Location.ofReference_eq_follow,
    Location.ofReference_eq_follow, h]

section Resolving

variable {location : Location} {resolver resolver' : Resolver}
  (hresolver : ∀ reference reference', reference.SameFile reference' →
    Alike location (resolver reference) (resolver' reference'))

include hresolver

/-- Values are expanded alike by schemas of the same place. -/
theorem alike_expand {schema schema' : Schema}
    (h : Location.base schema.directory = Location.base schema'.directory)
    (value : Value) :
    Alike location (expand resolver schema value) (expand resolver' schema' value) :=
  alike_walkable.expand_of_base_eq hresolver h value

theorem alike_expandText {held : List Location}
    (htraces : ∀ reference, Traces held (resolver' reference))
    (opened : Location) (text : String) :
    Alike location (expandText resolver opened text)
      (expandText resolver' opened text) where
  unknown_before context := (traces_expandText htraces opened text).progress?_eq_none
  alikeAt {context context'} hagree := by
    rw [AlikeAt]
    cases hroot : Yaml.read text with
    | error fault =>
      rw [runFrom_expandText_of_malformed hroot, runFrom_expandText_of_malformed hroot]
      exact fun _ => ⟨rfl, hagree⟩
    | ok root =>
      rw [runFrom_expandText_of_read hroot, runFrom_expandText_of_read hroot]
      refine (alike_expand hresolver ?_ root).alikeAt
        ⟨hagree.registry, hagree.inclusions⟩
      rw [base_eq_of_servesFor (Schemas.servesFor_obtain ..),
        base_eq_of_servesFor (Schemas.servesFor_obtain ..)]

end Resolving

section Inclusions

variable {location : Location} {reference reference' : Reference}

/-- Inclusions of other files are settled alike. -/
theorem alike_settle (hsame : reference.SameFile reference')
    (hother : reference'.location ≠ location) (value : Option Value) :
    Alike location (settle reference value) (settle reference' value) where
  unknown_before context hafter := by
    obtain ⟨outcome, inclusions, hrun, hending⟩ :=
      ending_settle reference' value context
    rw [hrun] at hafter
    rw [← hafter]
    exact (hending.agreeAt (Ne.symm hother)).progress?_eq
  alikeAt {context context'} hagree := by
    intro _
    have hlocation := hsame.location
    have hfinish : (context.inclusions.finish reference.location).without location =
        (context'.inclusions.finish reference'.location).without location := by
      rw [hlocation, Inclusions.without_finish hother, Inclusions.without_finish hother,
        hagree.inclusions]
    cases value with
    | none => exact ⟨rfl, ⟨hagree.registry, hfinish⟩⟩
    | some value =>
      by_cases hreusable : isReusable value
      · rw [runFrom_settle_of_reusable reference hreusable,
          runFrom_settle_of_reusable reference' hreusable]
        refine ⟨rfl, ⟨hagree.registry, ?_⟩⟩
        simp only [hlocation, Inclusions.without_retain hother, hagree.inclusions]
      · rw [runFrom_settle_of_once reference hreusable,
          runFrom_settle_of_once reference' hreusable, hsame.pathless]
        exact ⟨rfl, ⟨hagree.registry, hfinish⟩⟩

theorem AgreeApart.enter {context context' : Context}
    (hagree : AgreeApart location context context')
    {other : Location} (hother : other ≠ location) (contents : Except ReadFault String) :
    AgreeApart location (context.enter other contents)
      (context'.enter other contents) := by
  refine ⟨hagree.registry, ?_⟩
  simp only [Context.enter, Inclusions.without_start hother, hagree.inclusions]

/-- Other files are included alike if what is inside them is. -/
theorem alikeAt_includeOnce {contents : Except ReadFault String}
    {inside inside' : ∀ text, contents = .ok text → Expansion (Option Value)}
    {context context' : Context} (hsame : reference.SameFile reference')
    (hother : reference'.location ≠ location)
    (hinside : ∀ text found, Alike location (inside text found) (inside' text found))
    (hagree : AgreeApart location context context') :
    AlikeAt location context context' (includeOnce reference contents inside)
      (includeOnce reference' contents inside') := by
  intro hafter
  have hprogress := hagree.progress?_eq hother
  have hlocation := hsame.location
  cases hknown : context'.inclusions.progress? reference'.location with
  | some progress =>
    rw [hknown, ← hlocation] at hprogress
    rw [runFrom_includeOnce_of_known hprogress, runFrom_includeOnce_of_known hknown]
    exact ⟨rfl, ⟨hagree.registry, hagree.inclusions⟩⟩
  | none =>
    rw [hknown, ← hlocation] at hprogress
    cases contents with
    | error fault =>
      have hentered := hagree.enter hother (.error fault)
      rw [runFrom_includeOnce_of_unread hprogress rfl,
        runFrom_includeOnce_of_unread hknown rfl, hlocation]
      exact ⟨rfl, ⟨hentered.registry, hentered.inclusions⟩⟩
    | ok text =>
      have hentered := hagree.enter hother (.ok text)
      rw [runFrom_includeOnce_of_read hknown rfl] at hafter
      rw [runFrom_includeOnce_of_read hprogress rfl,
        runFrom_includeOnce_of_read hknown rfl, hlocation]
      have hall := alike_bind (hinside text rfl) (alike_settle hsame hother)
      obtain ⟨hresult, hlast⟩ := hall.alikeAt hentered hafter
      exact ⟨hresult, ⟨hlast.registry, hlast.inclusions⟩⟩

/-- A file is known when a reference to it has been resolved. -/
theorem progress?_ne_none_of_resolve (bundle : Bundle) (reference : Reference)
    (context : Context) :
    ((resolve bundle reference).runFrom context).2.inclusions.progress?
      reference.location ≠ none := by
  rw [runFrom_resolve, resolveOnce]
  cases hprogress : context.inclusions.progress? reference.location with
  | some progress =>
    rw [runFrom_includeOnce_of_known hprogress]
    simp [hprogress]
  | none =>
    cases hcontents : bundle.read reference.location.toPath with
    | error fault =>
      rw [runFrom_includeOnce_of_unread hprogress rfl]
      exact @progress?_ne_none_enter context reference.location (.error fault) hprogress
    | ok text =>
      rw [runFrom_includeOnce_of_read hprogress rfl, Expansion.runFrom_bind]
      have htraces := traces_expandText (traces_resolve bundle) reference.location text
      have hknown : ((expandText (resolve bundle) reference.location text).runFrom
          (context.enter reference.location (.ok text))).2.inclusions.progress?
            reference.location ≠ none := by
        intro hnone
        exact progress?_ne_none_enter hprogress (htraces.progress?_eq_none hnone)
      rcases hrun : (expandText (resolve bundle) reference.location text).runFrom
        (context.enter reference.location (.ok text)) with ⟨outcome, after⟩
      rw [hrun] at hknown
      cases outcome with
      | error error => exact hknown
      | ok value =>
        obtain ⟨outcome, inclusions, hsettle, hending⟩ :=
          ending_settle reference value after
        dsimp only
        rw [hsettle]
        exact hending.progress?_ne_none

/-- References to the same file are resolved alike. -/
theorem alike_resolve (bundle : Bundle) (location : Location)
    (reference reference' : Reference) (hsame : reference.SameFile reference') :
    Alike location (resolve bundle reference) (resolve bundle reference') := by
  induction hsize : bundle.size using Nat.strongRecOn
    generalizing bundle reference reference' with
  | ind size ih =>
    subst hsize
    refine ⟨fun context => (traces_resolve bundle reference').progress?_eq_none, ?_⟩
    intro context context' hagree hafter
    have hother : reference'.location ≠ location := by
      intro heq
      exact progress?_ne_none_of_resolve bundle reference' context' (heq ▸ hafter)
    have hlocation := hsame.location
    revert hafter
    rw [resolve, resolve, hlocation]
    refine alikeAt_includeOnce hsame hother ?_ hagree
    intro text hread
    refine alike_expandText ?_ (traces_resolve _) _ _
    intro inner inner' hinner
    exact ih _ (Bundle.size_without_lt hread) _ inner inner' hinner rfl

end Inclusions

end Routebook
