import Routebook.Proofs.Expansion.Course

/-!
# Expansion as a plain recursion

Resolving a reference takes the file out of the bundle before it goes on inside
the file.  Nothing depends on this: a file whose inclusion has started is not
read again, so the whole bundle would do.  Thus `resolve` is the plain recursion
that reads and expands with one and the same bundle.

The plain recursion needs no more levels than the bundle has files that are not
known yet, and one more.  It does not matter what deeper levels would do; they
are never reached.
-/

namespace Routebook

/-! ## Steps that do the same -/

/-- Whether two steps do the same as long as the inclusions satisfy a condition,
and keep the condition. -/
def SameWhile (I : Inclusions → Prop) {α : Type} (step step' : Expansion α) : Prop :=
  ∀ context, I context.inclusions →
    step.runFrom context = step'.runFrom context ∧ I (step.runFrom context).2.inclusions

section SameWhile

variable {I : Inclusions → Prop} {α β : Type}

theorem sameWhile_refl {step : Expansion α}
    (h : ∀ context, (step.runFrom context).2.inclusions = context.inclusions) :
    SameWhile I step step := by
  intro context hcontext
  refine ⟨rfl, ?_⟩
  rwa [h context]

theorem sameWhile_bind {step step' : Expansion α} {next next' : α → Expansion β}
    (hstep : SameWhile I step step') (hnext : ∀ result, SameWhile I (next result) (next' result)) :
    SameWhile I (step >>= next) (step' >>= next') := by
  intro context hcontext
  obtain ⟨hsame, hafter⟩ := hstep context hcontext
  rw [Expansion.runFrom_bind, Expansion.runFrom_bind, ← hsame]
  rcases hrun : step.runFrom context with ⟨outcome, after⟩
  rw [hrun] at hafter
  cases outcome with
  | error error => exact ⟨rfl, hafter⟩
  | ok result => exact hnext result after hafter

theorem sameWhile_enterable : Enterable (SameWhile I) where
  ofExcept _ := sameWhile_refl fun _ => rfl
  bind := sameWhile_bind
  obtainSchema _ := sameWhile_refl fun _ => rfl
  define body := by
    apply sameWhile_refl
    intro context
    rw [Expansion.runFrom_define]
    split <;> rfl
  applyTraits body := by
    apply sameWhile_refl
    intro context
    rw [Expansion.runFrom_applyTraits]

theorem sameWhile_expand {resolver resolver' : Resolver}
    (h : ∀ reference, SameWhile I (resolver reference) (resolver' reference)) (schema : Schema)
    (value : Value) : SameWhile I (expand resolver schema value) (expand resolver' schema value) :=
  sameWhile_enterable.expand (fun _ _ => h _) value

end SameWhile

/-- What an inclusion does depends on the contents of the file and on what is
inside it only if the file is met for the first time. -/
theorem runFrom_includeOnce_congr {reference : Reference}
    {contents contents' : Except ReadFault String}
    {inside : ∀ text, contents = .ok text → Expansion (Option Value)}
    {inside' : ∀ text, contents' = .ok text → Expansion (Option Value)} {context : Context}
    (hcontents : context.inclusions.progress? reference.location = none → contents = contents')
    (hinside : context.inclusions.progress? reference.location = none →
      ∀ text found found', (inside text found).runFrom (context.enter reference.location contents) =
        (inside' text found').runFrom (context.enter reference.location contents)) :
    (includeOnce reference contents inside).runFrom context =
      (includeOnce reference contents' inside').runFrom context := by
  cases hprogress : context.inclusions.progress? reference.location with
  | some progress =>
    rw [runFrom_includeOnce_of_known hprogress, runFrom_includeOnce_of_known hprogress]
  | none =>
    obtain rfl := hcontents hprogress
    cases contents with
    | error fault =>
      rw [runFrom_includeOnce_of_unread hprogress rfl, runFrom_includeOnce_of_unread hprogress rfl]
    | ok text =>
      rw [runFrom_includeOnce_of_read hprogress rfl, runFrom_includeOnce_of_read hprogress rfl]
      rw [Expansion.runFrom_bind, Expansion.runFrom_bind, hinside hprogress text rfl rfl]

/-! ## Known files need not be in the bundle -/

/-- Whether two bundles have the same contents at all locations that are not
known yet. -/
def SameUnread (bundle bundle' : Bundle) (inclusions : Inclusions) : Prop :=
  ∀ location : Location, location.Proper → inclusions.progress? location = none →
    bundle.read location.toPath = bundle'.read location.toPath

theorem Bundle.read_without {bundle : Bundle} {location : Location} {path : Path}
    (h : .ofPath path ≠ location) : (bundle.without location).read path = bundle.read path := by
  have hlookup : (bundle.without location).texts.lookup (.ofPath path) =
      bundle.texts.lookup (.ofPath path) := Assoc.lookup_filter_of_ne h bundle.texts
  rw [read, read, hlookup]
  rfl

theorem Bundle.read_without_toPath {bundle : Bundle} {location other : Location}
    (hproper : other.Proper) (hother : other ≠ location) :
    (bundle.without location).read other.toPath = bundle.read other.toPath := by
  apply read_without
  rwa [Location.ofPath_toPath hproper]

/-- What a course leaves unknown was unknown before. -/
theorem Traces.progress?_eq_none {held : List Location} {α : Type} {step : Expansion α}
    (h : Traces held step) {context : Context} {location : Location}
    (hafter : (step.runFrom context).2.inclusions.progress? location = none) :
    context.inclusions.progress? location = none :=
  (h context).progress?_eq_none hafter

theorem SameUnread.after {bundle bundle' : Bundle} {held : List Location} {α : Type}
    {step : Expansion α} (htraces : Traces held step) {context : Context}
    (h : SameUnread bundle bundle' context.inclusions) :
    SameUnread bundle bundle' (step.runFrom context).2.inclusions :=
  fun location hproper hnew => h location hproper (htraces.progress?_eq_none hnew)

theorem progress?_ne_none_enter {context : Context} {location : Location}
    {contents : Except ReadFault String}
    (hnew : context.inclusions.progress? location = none) :
    (context.enter location contents).inclusions.progress? location ≠ none := by
  rw [Context.enter, Inclusions.progress?_start hnew]
  simp

theorem progress?_enter_eq_none {context : Context} {location other : Location}
    {contents : Except ReadFault String}
    (hnew : context.inclusions.progress? location = none) :
    (context.enter location contents).inclusions.progress? other = none ↔
      context.inclusions.progress? other = none ∧ other ≠ location := by
  by_cases hother : other = location
  · subst hother
    simp [progress?_ne_none_enter hnew]
  · rw [Context.enter, ← (Inclusions.agreeAt_start hother context.inclusions).progress?_eq]
    simp [hother]

/-- Inside a file two bundles may differ at the file as well. -/
theorem sameUnread_enter {bundle bundle' : Bundle} {context : Context} {location : Location}
    {contents : Except ReadFault String}
    (h : SameUnread bundle bundle' context.inclusions)
    (hnew : context.inclusions.progress? location = none) :
    SameUnread (bundle.without location) (bundle'.without location)
      (context.enter location contents).inclusions := by
  intro other hproper hother
  obtain ⟨hunread, hne⟩ := (progress?_enter_eq_none hnew).1 hother
  rw [Bundle.read_without_toPath hproper hne, Bundle.read_without_toPath hproper hne]
  exact h other hproper hunread

theorem sameUnread_without {bundle : Bundle} {context : Context} {location : Location}
    {contents : Except ReadFault String}
    (hnew : context.inclusions.progress? location = none) :
    SameUnread (bundle.without location) bundle (context.enter location contents).inclusions := by
  intro other hproper hother
  exact Bundle.read_without_toPath hproper ((progress?_enter_eq_none hnew).1 hother).2

/-- References are resolved alike by bundles that agree on the files that are not
known yet. -/
theorem runFrom_resolve_congr (bundle bundle' : Bundle) (reference : Reference) (context : Context)
    (h : SameUnread bundle bundle' context.inclusions) :
    (resolve bundle reference).runFrom context = (resolve bundle' reference).runFrom context := by
  induction hsize : bundle.size using Nat.strongRecOn
    generalizing bundle bundle' reference context with
  -- Inside the file, both bundles have lost it; the first has become smaller.
  | ind size ih =>
    subst hsize
    rw [resolve, resolve]
    apply runFrom_includeOnce_congr
    · exact h reference.location reference.proper_location
    · intro hnew text found found'
      have hsame : ∀ inner, SameWhile
          (SameUnread (bundle.without reference.location) (bundle'.without reference.location))
          (resolve (bundle.without reference.location) inner)
          (resolve (bundle'.without reference.location) inner) := by
        intro inner other hother
        have hsmaller := Bundle.size_without_lt found
        rw [reference.ofPath_toPath] at hsmaller
        exact ⟨ih _ hsmaller _ _ inner other hother rfl, hother.after (traces_resolve _ inner)⟩
      rw [reference.ofPath_toPath]
      exact (sameWhile_enterable.expandText hsame _ text _ (sameUnread_enter h hnew)).1

/-! ## The plain recursion -/

/-- Resolve a reference by the files of a bundle, and the references inside the
file by the given resolver. -/
def resolveOnce (bundle : Bundle) (resolver : Resolver) : Resolver := fun reference =>
  includeOnce reference (bundle.read reference.location.toPath) fun text _ =>
    expandText resolver reference.location text

/-- Resolving a reference is reading the file and going on in the same way. -/
theorem runFrom_resolve (bundle : Bundle) (reference : Reference) (context : Context) :
    (resolve bundle reference).runFrom context =
      (resolveOnce bundle (resolve bundle) reference).runFrom context := by
  rw [resolve, resolveOnce]
  apply runFrom_includeOnce_congr
  · exact fun _ => rfl
  · intro hnew text found found'
    have hsame : ∀ inner, SameWhile (SameUnread (bundle.without reference.location) bundle)
        (resolve (bundle.without reference.location) inner) (resolve bundle inner) := by
      intro inner other hother
      exact ⟨runFrom_resolve_congr _ _ inner other hother, hother.after (traces_resolve _ inner)⟩
    rw [reference.ofPath_toPath]
    exact (sameWhile_enterable.expandText hsame _ text _ (sameUnread_without hnew)).1

/-- The plain recursion down to a depth, with a resolver for what is beyond. -/
def resolveWithin (beyond : Resolver) (bundle : Bundle) : Nat → Resolver
  | 0 => beyond
  | depth + 1 => resolveOnce bundle (resolveWithin beyond bundle depth)

/-- The files of a bundle that are not known yet. -/
def unread (bundle : Bundle) (inclusions : Inclusions) : List Location :=
  bundle.locations.filter fun location => (inclusions.progress? location).isNone

theorem length_unread_le (bundle : Bundle) (inclusions : Inclusions) :
    (unread bundle inclusions).length ≤ bundle.size := by
  rw [← bundle.length_locations]
  exact List.length_filter_le ..

/-- Inside a file of the bundle there is one file less that is not known. -/
theorem length_unread_enter_lt {bundle : Bundle} {context : Context} {location : Location}
    {contents : Except ReadFault String} (hmem : location ∈ bundle.locations)
    (hnew : context.inclusions.progress? location = none) :
    (unread bundle (context.enter location contents).inclusions).length <
      (unread bundle context.inclusions).length := by
  have hfilter : unread bundle (context.enter location contents).inclusions =
      (unread bundle context.inclusions).filter (· ≠ location) := by
    rw [unread, unread, List.filter_filter]
    apply List.filter_congr
    intro other _
    rw [Bool.eq_iff_iff]
    simp only [Option.isNone_iff_eq_none, progress?_enter_eq_none hnew]
    simp [and_comm]
  rw [hfilter, List.length_filter_lt_length_iff_exists]
  refine ⟨location, List.mem_filter.2 ⟨hmem, ?_⟩, by simp⟩
  simp [hnew]

theorem length_unread_after {bundle : Bundle} {held : List Location} {α : Type}
    {step : Expansion α} (htraces : Traces held step) (context : Context) :
    (unread bundle (step.runFrom context).2.inclusions).length ≤
      (unread bundle context.inclusions).length := by
  apply List.Sublist.length_le
  apply List.monotone_filter_right
  intro location hafter
  simp only [Option.isNone_iff_eq_none] at hafter ⊢
  exact htraces.progress?_eq_none hafter

/-- Down to a depth above the number of unknown files, the plain recursion is
all that ever happens. -/
theorem runFrom_resolveWithin (beyond : Resolver) (bundle : Bundle) {depth : Nat}
    (reference : Reference) {context : Context}
    (h : (unread bundle context.inclusions).length < depth) :
    (resolveWithin beyond bundle depth reference).runFrom context =
      (resolve bundle reference).runFrom context := by
  induction depth generalizing reference context with
  | zero => omega
  | succ depth ih =>
    rw [runFrom_resolve, resolveWithin, resolveOnce, resolveOnce]
    apply runFrom_includeOnce_congr
    · exact fun _ => rfl
    · intro hnew text found _
      have hmem : reference.location ∈ bundle.locations := by
        have hread := Bundle.mem_locations_of_read found
        rwa [reference.ofPath_toPath] at hread
      have hsmaller : (unread bundle (context.enter reference.location
          (bundle.read reference.location.toPath)).inclusions).length <
            (unread bundle context.inclusions).length := length_unread_enter_lt hmem hnew
      have hsame : ∀ inner, SameWhile
          (fun inclusions => (unread bundle inclusions).length < depth)
          (resolveWithin beyond bundle depth inner) (resolve bundle inner) := by
        intro inner other hother
        refine ⟨ih inner hother, ?_⟩
        rw [ih inner hother]
        exact Nat.lt_of_le_of_lt (length_unread_after (traces_resolve bundle inner) other) hother
      exact (sameWhile_enterable.expandText hsame _ text _ (by omega)).1

end Routebook
