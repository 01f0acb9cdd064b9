import Mathlib.Data.List.Basic
import Routebook.Expansion.Include
import Routebook.Proofs.Expansion.Parallel
import Routebook.Proofs.Path.Canonical

/-!
# The course of an expansion

As far as inclusions go, an expansion is a sequence of references, and a
reference that reads a file has an expansion of its own inside it.  `Course`
says this without the values that are walked: it relates what is remembered, and
the journal, before and after.

Every expansion takes a course, whether it succeeds or fails.  What holds of
every run is proved by induction on its course.
-/

namespace Routebook

/-- What an expansion remembers about inclusions, and how it came to. -/
structure Stage where
  inclusions : Inclusions
  /-- The steps so far, last one first. -/
  journal : List Event

/-- The part of a context that references read and write. -/
def Context.stage (context : Context) : Stage :=
  ⟨context.inclusions, context.journal⟩

namespace Stage

/-- Add to the journal. -/
def note (stage : Stage) (event : Event) : Stage :=
  { stage with journal := event :: stage.journal }

/-- Where the inclusion of a file has started and its contents have been read. -/
def enter (stage : Stage) (location : Location) (contents : Except ReadFault String) : Stage where
  inclusions := stage.inclusions.start location
  journal := .opened location contents :: .requested location :: stage.journal

/-- Where a reference has been resolved, leaving the given inclusions. -/
def leave (stage : Stage) (location : Location) (outcome : Except Error (Option Value))
    (inclusions : Inclusions) : Stage where
  inclusions := inclusions
  journal := .resolved location outcome :: stage.journal

end Stage

/-! ## Courses -/

/-- Whether a value is a mapping that does not say of itself that it can be
included again. -/
def Unmarked (value : Value) : Prop :=
  ∃ entries, value = .mapping entries ∧ Mapping.has entries Keyword.reusable = false

/-- How the inclusion of a file ends whose expansion has succeeded or failed:
with an outcome, and with a change to what is remembered. -/
inductive Ending (location : Location) (inclusions : Inclusions) :
    Bool → Except Error (Option Value) → Inclusions → Prop
  | failed (ok : Bool) (error : Error) :
    Ending location inclusions ok (.error error) inclusions
  | finished (value : Option Value) :
    Ending location inclusions true (.ok value) (inclusions.finish location)
  | retained {value : Value} (hvalue : Unmarked value) :
    Ending location inclusions true (.ok (some value)) (inclusions.retain location value)

theorem unmarked_withoutMark {value : Value} (h : isReusable value) :
    Unmarked (withoutMark value) := by
  cases value with
  | mapping entries =>
    refine ⟨_, rfl, ?_⟩
    simp [Mapping.has, Mapping.erase]
  | _ => simp [isReusable] at h

/-- What expansions can do to a stage, and whether all of them succeed, if they
can read no files but those at the given locations. -/
inductive Course (held : List Location) : Bool → Stage → Stage → Prop
  | stay (ok : Bool) (stage : Stage) : Course held ok stage stage
  | andThen {ok ok' : Bool} {first middle last : Stage} :
    Course held ok first middle → Course held ok' middle last →
      Course held (ok && ok') first last
  | used (ok : Bool) (stage : Stage) (body : Mapping) :
    Course held ok stage (stage.note (.used body))
  | recalled {stage : Stage} {location : Location} {progress : Progress}
      (hknown : stage.inclusions.progress? location = some progress) :
    Course held true stage
      ((stage.note (.requested location)).leave location (.ok progress.value?) stage.inclusions)
  | unreadable {stage : Stage} {location : Location}
      (hnew : stage.inclusions.progress? location = none) (fault : ReadFault) (error : Error) :
    Course held false stage
      ((stage.enter location (.error fault)).leave location (.error error)
        (stage.inclusions.start location))
  | visited {ok : Bool} {stage middle : Stage} {location : Location} {text : String}
      {outcome : Except Error (Option Value)} {inclusions : Inclusions}
      (hnew : stage.inclusions.progress? location = none) (hheld : location ∈ held)
      (hinner : Course held ok (stage.enter location (.ok text)) middle)
      (hending : Ending location middle.inclusions ok outcome inclusions) :
    Course held outcome.isOk stage (middle.leave location outcome inclusions)

theorem Course.mono {held held' : List Location} (hsub : held ⊆ held') {ok : Bool}
    {first last : Stage} (h : Course held ok first last) : Course held' ok first last := by
  induction h with
  | stay ok stage => exact .stay ok stage
  | andThen _ _ ihfirst ihsecond => exact .andThen ihfirst ihsecond
  | used ok stage body => exact .used ok stage body
  | recalled hknown => exact .recalled hknown
  | unreadable hnew fault error => exact .unreadable hnew fault error
  | visited hnew hheld _ hending ih => exact .visited hnew (hsub hheld) ih hending

/-! ## What a course leaves alone -/

theorem Ending.agreeAt {location other : Location} {ok : Bool}
    {outcome : Except Error (Option Value)} {before after : Inclusions}
    (h : Ending location before ok outcome after) (hother : other ≠ location) :
    Inclusions.AgreeAt other before after := by
  cases h with
  | failed => exact .refl other before
  | finished => exact Inclusions.agreeAt_finish hother before
  | retained => exact Inclusions.agreeAt_retain hother before _

/-- A file whose expansion has succeeded is known. -/
theorem Ending.progress?_ne_none {location : Location} {value : Option Value}
    {before after : Inclusions} (h : Ending location before true (.ok value) after) :
    after.progress? location ≠ none := by
  cases h with
  | finished =>
    apply Inclusions.progress?_ne_none_of_isKnown
    simp [Inclusions.isKnown, Inclusions.finish]
  | retained =>
    rw [Inclusions.progress?_retain]
    simp

/-- What is remembered about a file does not change any more once its inclusion
has started, as far as a course reaches that starts later. -/
theorem Course.agreeAt {held : List Location} {ok : Bool} {first last : Stage}
    (h : Course held ok first last) {location : Location}
    (hknown : first.inclusions.progress? location ≠ none) :
    Inclusions.AgreeAt location first.inclusions last.inclusions := by
  induction h with
  | stay | used | recalled => exact .refl location _
  | andThen _ _ ihfirst ihsecond =>
    have hfirst := ihfirst hknown
    have hmiddle := hfirst.progress?_eq
    exact hfirst.trans (ihsecond (hmiddle ▸ hknown))
  -- The file that is read was unknown before, so it is not the one in question.
  | @unreadable stage opened hnew =>
    have hother : location ≠ opened := fun heq => hknown (heq ▸ hnew)
    exact Inclusions.agreeAt_start hother stage.inclusions
  | @visited _ stage _ opened _ _ _ hnew _ _ hending ih =>
    have hother : location ≠ opened := fun heq => hknown (heq ▸ hnew)
    have hstart := Inclusions.agreeAt_start hother stage.inclusions
    have hinner := ih (hstart.progress?_eq ▸ hknown)
    exact (hstart.trans hinner).trans (hending.agreeAt hother)

/-- A file that is known stays known. -/
theorem Course.progress?_eq_none {held : List Location} {ok : Bool} {first last : Stage}
    (h : Course held ok first last) {location : Location}
    (hlast : last.inclusions.progress? location = none) :
    first.inclusions.progress? location = none := by
  by_contra hknown
  exact hknown ((h.agreeAt hknown).progress?_eq.trans hlast)

/-- A file stays under way as long as its expansion goes on. -/
theorem Course.underway {held : List Location} {ok : Bool} {stage middle : Stage}
    {location : Location} {contents : Except ReadFault String}
    (hnew : stage.inclusions.progress? location = none)
    (hinner : Course held ok (stage.enter location contents) middle) :
    middle.inclusions.finished.lookup location = some false ∧
      middle.inclusions.value? location = none := by
  have hstarted : (stage.inclusions.start location).progress? location ≠ none := by
    rw [Inclusions.progress?_start hnew]
    simp
  have hagree := hinner.agreeAt hstarted
  constructor
  · rw [← hagree.1]
    exact Assoc.lookup_put_self ..
  · rw [← hagree.2]
    exact (Inclusions.progress?_eq_none.1 hnew).2

/-! ## Steps that take a course -/

/-- Whether every run of a step takes a course. -/
def Traces (held : List Location) {α : Type} (step : Expansion α) : Prop :=
  ∀ context, Course held (step.runFrom context).1.isOk context.stage
    (step.runFrom context).2.stage

section Steps

variable {held : List Location} {α β : Type}

theorem Traces.mono {held' : List Location} (hsub : held ⊆ held') {step : Expansion α}
    (h : Traces held step) : Traces held' step :=
  fun context => (h context).mono hsub

/-- A step that leaves its stage alone. -/
theorem traces_of_stage_eq {step : Expansion α}
    (h : ∀ context, (step.runFrom context).2.stage = context.stage) : Traces held step := by
  intro context
  rw [h context]
  exact .stay ..

theorem traces_bind {step : Expansion α} {next : α → Expansion β} (hstep : Traces held step)
    (hnext : ∀ result, Traces held (next result)) : Traces held (step >>= next) := by
  intro context
  have hfirst := hstep context
  rw [Expansion.runFrom_bind]
  rcases hrun : step.runFrom context with ⟨outcome, after⟩
  rw [hrun] at hfirst
  cases outcome with
  | error error => exact hfirst
  | ok result =>
    have hcourse := hfirst.andThen (hnext result after)
    rwa [Except.isOk, Except.toBool, Bool.true_and] at hcourse

theorem traces_define (body : Mapping) : Traces held (Expansion.define body) := by
  apply traces_of_stage_eq
  intro context
  rw [Expansion.runFrom_define]
  split <;> rfl

theorem traces_applyTraits (body : Mapping) : Traces held (Expansion.applyTraits body) := by
  intro context
  rw [Expansion.runFrom_applyTraits]
  exact .used _ context.stage body

theorem traces_enterable : Enterable fun step _ => Traces held step where
  ofExcept _ := traces_of_stage_eq fun _ => rfl
  bind := traces_bind
  obtainSchema _ := traces_of_stage_eq fun _ => rfl
  define := traces_define
  applyTraits := traces_applyTraits

theorem traces_expand {resolver : Resolver}
    (hresolver : ∀ reference, Traces held (resolver reference)) (schema : Schema)
    (value : Value) : Traces held (expand resolver schema value) :=
  @Walkable.expand _ resolver resolver schema schema traces_enterable.toWalkable
    (fun _ _ => hresolver _) value

theorem traces_run {resolver : Resolver}
    (hresolver : ∀ reference, Traces held (resolver reference)) (schema : Schema)
    (command : Command) (operand : Operand) :
    Traces held (command.run resolver schema operand) :=
  @Walkable.run _ resolver resolver schema schema traces_enterable.toWalkable
    (fun _ _ => hresolver _) command operand

theorem traces_expandEntries {resolver : Resolver}
    (hresolver : ∀ reference, Traces held (resolver reference)) (schema : Schema)
    (entries : Mapping) : Traces held (expandEntries resolver schema entries) :=
  @Walkable.expandEntries _ resolver resolver schema schema traces_enterable.toWalkable
    (fun _ _ => hresolver _) entries

theorem traces_expandItems {resolver : Resolver}
    (hresolver : ∀ reference, Traces held (resolver reference)) (schema : Schema)
    (items : List Value) : Traces held (expandItems resolver schema items) :=
  @Walkable.expandItems _ resolver resolver schema schema traces_enterable.toWalkable
    (fun _ _ => hresolver _) items

theorem traces_expandText {resolver : Resolver}
    (hresolver : ∀ reference, Traces held (resolver reference)) (location : Location)
    (text : String) : Traces held (expandText resolver location text) :=
  @Enterable.expandText _ resolver resolver traces_enterable hresolver location text

/-- How the inclusion of a file that has been expanded ends. -/
theorem ending_settle (reference : Reference) (value : Option Value) (context : Context) :
    ∃ outcome inclusions,
      (settle reference value).runFrom context = (.ok outcome, { context with inclusions }) ∧
        Ending reference.location context.stage.inclusions true (.ok outcome) inclusions := by
  cases value with
  | none => exact ⟨none, _, rfl, .finished none⟩
  | some value =>
    by_cases hreusable : isReusable value
    · exact ⟨_, _, runFrom_settle_of_reusable reference hreusable context,
        .retained (unmarked_withoutMark hreusable)⟩
    · exact ⟨_, _, runFrom_settle_of_once reference hreusable context, .finished _⟩

/-- A reference takes a course if the expansions of texts do. -/
theorem traces_includeOnce {reference : Reference} {contents : Except ReadFault String}
    {inside : ∀ text, contents = .ok text → Expansion (Option Value)}
    (hheld : ∀ text, contents = .ok text → reference.location ∈ held)
    (hinside : ∀ text found, Traces held (inside text found)) :
    Traces held (includeOnce reference contents inside) := by
  intro context
  cases hprogress : context.inclusions.progress? reference.location with
  | some progress =>
    rw [runFrom_includeOnce_of_known hprogress]
    exact .recalled hprogress
  | none =>
    cases contents with
    | error fault =>
      rw [runFrom_includeOnce_of_unread hprogress rfl]
      exact .unreadable hprogress fault _
    | ok text =>
      rw [runFrom_includeOnce_of_read hprogress rfl, Expansion.runFrom_bind]
      have hinner := hinside text rfl (context.enter reference.location (.ok text))
      rcases hrun : (inside text rfl).runFrom
        (context.enter reference.location (.ok text)) with ⟨outcome, after⟩
      rw [hrun] at hinner
      cases outcome with
      | error error =>
        have hcourse : Course held false (context.stage.enter reference.location (.ok text))
            after.stage := hinner
        exact .visited hprogress (hheld text rfl) hcourse (.failed false error)
      | ok value =>
        have hcourse : Course held true (context.stage.enter reference.location (.ok text))
            after.stage := hinner
        obtain ⟨outcome, inclusions, hsettle, hending⟩ := ending_settle reference value after
        dsimp only
        rw [hsettle]
        exact .visited hprogress (hheld text rfl) hcourse hending

end Steps

/-! ## Expansions of the library -/

theorem Reference.proper_location (reference : Reference) : reference.location.Proper :=
  Location.proper_ofReference reference.directory ⟨reference.file⟩

theorem Reference.ofPath_toPath (reference : Reference) :
    .ofPath reference.location.toPath = reference.location :=
  Location.ofPath_toPath reference.proper_location

/-- What resolving a reference does is a course through the files of the bundle. -/
theorem traces_resolve (bundle : Bundle) (reference : Reference) :
    Traces bundle.locations (resolve bundle reference) := by
  induction hsize : bundle.size using Nat.strongRecOn generalizing bundle reference with
  | ind size ih =>
    subst hsize
    rw [resolve]
    apply traces_includeOnce
    · intro text hread
      rw [← reference.ofPath_toPath]
      exact Bundle.mem_locations_of_read hread
    · intro text hread
      apply traces_expandText
      intro inner
      have hsmaller := Bundle.size_without_lt hread
      refine (ih _ hsmaller _ inner rfl).mono ?_
      rw [Bundle.locations_without]
      exact List.filter_subset_self _

theorem traces_expandIn (bundle : Bundle) (directory : Option Path) (value : Value) :
    Traces bundle.locations (expandIn bundle directory value) := by
  apply traces_bind (traces_enterable.obtainSchema directory)
  exact fun schema => traces_expand (traces_resolve bundle) schema value

theorem traces_expandRoot (bundle : Bundle) (root : Value) :
    Traces bundle.locations (expandRoot bundle root) := by
  apply traces_bind
  · exact traces_of_stage_eq fun _ => rfl
  · intro context
    apply traces_bind
    · exact traces_expandIn bundle context.configDir root
    · intro value
      apply traces_of_stage_eq
      intro context
      split <;> rfl

end Routebook
