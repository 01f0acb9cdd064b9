import Routebook.Proofs.Expansion.Journal
import Routebook.Proofs.Expansion.Session

/-!
# What references to one file come to

The first reference to a file decides about all others.  While it is being
resolved, references to the file come to nothing.  Afterwards they come to
nothing as well, unless the file can be included again: then they come to the
very value that the first one came to.

The history of a file is told piece by piece along the course of an expansion.
A piece tells which references to the file were resolved on the way and depends
only on what was remembered about the file before and after.
-/

namespace Routebook

/-! ## The history of one file -/

/-- How the first resolution of a file comes out, and what is remembered then. -/
inductive Concludes : Except Error (Option Value) → Progress → Prop
  | failed (error : Error) : Concludes (.error error) .underway
  | finished (value : Option Value) : Concludes (.ok value) .done
  | retained {value : Value} (hvalue : Unmarked value) :
    Concludes (.ok (some value)) (.reusable value)

/-- A piece of the history of a file: the references to it that were resolved,
the last one first, between two moments of the given progress. -/
inductive Story : Option Progress → Option Progress → List Resolution → Prop
  | unknown : Story none none []
  | known {progress : Progress} {told : List Resolution}
      (htold : ∀ other ∈ told, other.outcome = .ok progress.value?) :
    Story (some progress) (some progress) told
  | visited {progress : Progress} {first : Resolution} {during later : List Resolution}
      (hfirst : Concludes first.outcome progress)
      (hbounds : first.began < first.ended)
      (hduring : ∀ other ∈ during, first.began < other.began ∧ other.began < first.ended ∧
        other.outcome = .ok none)
      (hlater : ∀ other ∈ later, first.ended < other.began ∧
        other.outcome = .ok progress.value?) :
    Story none (some progress) (later ++ first :: during)

theorem Story.outcome_eq {progress : Progress} {after : Option Progress} {told : List Resolution}
    (h : Story (some progress) after told) :
    ∀ other ∈ told, other.outcome = .ok progress.value? := by
  cases h with
  | known htold => exact htold

/-- The piece of history that is over when the first reference is resolved. -/
theorem Story.of_first {progress : Progress} {first : Resolution} {during : List Resolution}
    (hfirst : Concludes first.outcome progress) (hbounds : first.began < first.ended)
    (hduring : ∀ other ∈ during, first.began < other.began ∧ other.began < first.ended ∧
      other.outcome = .ok none) : Story none (some progress) (first :: during) := by
  have hstory : Story none (some progress) ([] ++ first :: during) := by
    apply Story.visited hfirst hbounds hduring
    simp
  exact hstory

/-- A piece of history goes on with the next one. -/
theorem Story.trans {before between after : Option Progress} {told told' : List Resolution}
    (h : Story before between told) (h' : Story between after told')
    (happart : ∀ earlier ∈ told, ∀ other ∈ told', earlier.ended < other.began) :
    Story before after (told' ++ told) := by
  cases h with
  | unknown =>
    rw [List.append_nil]
    exact h'
  | known htold =>
    cases h' with
    | known htold' =>
      apply Story.known
      intro other hother
      rcases List.mem_append.1 hother with hother | hother
      · exact htold' other hother
      · exact htold other hother
  | @visited _ first during later hfirst hbounds hduring hlater =>
    cases h' with
    | known htold' =>
      rw [← List.append_assoc]
      apply Story.visited hfirst hbounds hduring
      intro other hother
      rcases List.mem_append.1 hother with hother | hother
      · have hmem : first ∈ later ++ first :: during :=
          List.mem_append_right _ List.mem_cons_self
        exact ⟨happart first hmem other hother, htold' other hother⟩
      · exact hlater other hother

/-! ## The history of all files along a course -/

/-- The references that were resolved between two stages. -/
structure Chronicle (first last : Stage) (told : List Resolution) : Prop where
  length_le : first.journal.length ≤ last.journal.length
  resolutions_eq : resolutions last.journal = told ++ resolutions first.journal
  within : ∀ other ∈ told, first.journal.length ≤ other.began ∧ other.began < other.ended ∧
    other.ended < last.journal.length
  story : ∀ location, Story (first.inclusions.progress? location)
    (last.inclusions.progress? location) (told.filter (·.location = location))

namespace Chronicle

variable {first middle last stage : Stage} {told told' : List Resolution}

/-- Nothing is told where nothing is resolved. -/
theorem of_resolutions_eq (hlength : first.journal.length ≤ last.journal.length)
    (hresolutions : resolutions last.journal = resolutions first.journal)
    (hinclusions : last.inclusions = first.inclusions) : Chronicle first last [] where
  length_le := hlength
  resolutions_eq := hresolutions
  within := by simp
  story location := by
    rw [hinclusions]
    cases first.inclusions.progress? location with
    | none => exact .unknown
    | some progress => exact .known (by simp)

theorem refl (stage : Stage) : Chronicle stage stage [] :=
  of_resolutions_eq (Nat.le_refl _) rfl rfl

theorem trans (h : Chronicle first middle told) (h' : Chronicle middle last told') :
    Chronicle first last (told' ++ told) where
  length_le := Nat.le_trans h.length_le h'.length_le
  resolutions_eq := by
    rw [h'.resolutions_eq, h.resolutions_eq, List.append_assoc]
  within other hother := by
    have hlength := h.length_le
    have hlength' := h'.length_le
    rcases List.mem_append.1 hother with hother | hother
    · have hwithin := h'.within other hother
      omega
    · have hwithin := h.within other hother
      omega
  story location := by
    rw [List.filter_append]
    apply (h.story location).trans (h'.story location)
    intro earlier hearlier other hother
    have hbefore := h.within earlier (List.mem_filter.1 hearlier).1
    have hafter := h'.within other (List.mem_filter.1 hother).1
    omega

/-- A reference to a file whose inclusion has started. -/
theorem recalled {location : Location} {progress : Progress}
    (hknown : stage.inclusions.progress? location = some progress) :
    Chronicle stage
      ((stage.note (.requested location)).leave location (.ok progress.value?) stage.inclusions)
      [⟨location, stage.journal.length, stage.journal.length + 1, .ok progress.value?⟩] where
  length_le := by
    simp only [Stage.leave, Stage.note, List.length_cons]
    omega
  resolutions_eq := rfl
  within := by simp [Stage.leave, Stage.note]
  story other := by
    rw [Stage.leave]
    by_cases hother : location = other
    · subst hother
      rw [hknown]
      exact .known (by simp)
    · rw [List.filter_cons_of_neg (by simpa using hother)]
      exact (refl stage).story other

end Chronicle

theorem Ending.concludes {location : Location} {ok : Bool}
    {outcome : Except Error (Option Value)} {before after : Inclusions}
    (h : Ending location before ok outcome after)
    (hunderway : before.finished.lookup location = some false)
    (hnone : before.value? location = none) :
    ∃ progress, after.progress? location = some progress ∧ Concludes outcome progress := by
  cases h with
  | failed _ error =>
    refine ⟨.underway, ?_, .failed error⟩
    rw [Inclusions.progress?, hnone, hunderway]
    rfl
  | finished value => exact ⟨.done, Inclusions.progress?_finish hnone, .finished value⟩
  | retained hvalue => exact ⟨_, Inclusions.progress?_retain before location _, .retained hvalue⟩

namespace Chronicle

/-- The first reference to a file tells of itself, and of what is resolved while
the file is expanded. -/
theorem visited {stage middle : Stage} {location : Location}
    {contents : Except ReadFault String} {told : List Resolution} {ok : Bool}
    {outcome : Except Error (Option Value)} {inclusions : Inclusions} {held : List Location}
    (hnew : stage.inclusions.progress? location = none)
    (hcourse : Course held ok (stage.enter location contents) middle)
    (hinner : Chronicle (stage.enter location contents) middle told)
    (hending : Ending location middle.inclusions ok outcome inclusions) :
    Chronicle stage (middle.leave location outcome inclusions)
      (⟨location, stage.journal.length, middle.journal.length, outcome⟩ :: told) := by
  have hlength : stage.journal.length + 2 ≤ middle.journal.length := hinner.length_le
  have hwithin : ∀ other ∈ told, stage.journal.length + 2 ≤ other.began ∧
      other.began < other.ended ∧ other.ended < middle.journal.length := hinner.within
  constructor
  · simp only [Stage.leave, List.length_cons]
    omega
  · rw [Stage.leave, resolutions, hcourse.pending_eq, pending_enter, hinner.resolutions_eq]
    rfl
  · simp only [Stage.leave, List.length_cons]
    intro other hother
    rcases List.mem_cons.1 hother with rfl | hother
    · dsimp only
      omega
    · have hother := hwithin other hother
      omega
  · intro other
    have hstory := hinner.story other
    by_cases hother : location = other
    · subst hother
      obtain ⟨hunderway, hnone⟩ := hcourse.underway hnew
      obtain ⟨progress, hprogress, hconcludes⟩ := hending.concludes hunderway hnone
      rw [hnew, Stage.leave, hprogress, List.filter_cons_of_pos (by simp)]
      rw [Stage.enter, Inclusions.progress?_start hnew] at hstory
      apply Story.of_first hconcludes
      · dsimp only
        omega
      · intro other hother
        have hbounds := hwithin other (List.mem_filter.1 hother).1
        have houtcome := hstory.outcome_eq other hother
        dsimp only
        exact ⟨by omega, by omega, houtcome⟩
    · have hother : other ≠ location := Ne.symm hother
      rw [List.filter_cons_of_neg (by simpa using hother.symm)]
      rw [(Inclusions.agreeAt_start hother stage.inclusions).progress?_eq]
      rw [Stage.leave, ← (hending.agreeAt hother).progress?_eq]
      exact hstory

end Chronicle

/-- Every course has a chronicle. -/
theorem Course.chronicle {held : List Location} {ok : Bool} {first last : Stage}
    (h : Course held ok first last) : ∃ told, Chronicle first last told := by
  induction h with
  | stay => exact ⟨[], .refl _⟩
  | used => exact ⟨[], .of_resolutions_eq (Nat.le_succ _) rfl rfl⟩
  | recalled hknown => exact ⟨_, .recalled hknown⟩
  | andThen _ _ ihfirst ihsecond =>
    obtain ⟨told, hfirst⟩ := ihfirst
    obtain ⟨told', hsecond⟩ := ihsecond
    exact ⟨told' ++ told, hfirst.trans hsecond⟩
  | @unreadable stage location hnew fault error =>
    -- Nothing happens between the start of the inclusion and the failure.
    have hcourse : Course held false (stage.enter location (.error fault))
        (stage.enter location (.error fault)) := .stay ..
    exact ⟨_, .visited hnew hcourse (.refl _) (.failed false error)⟩
  | visited hnew _ hcourse hending ih =>
    obtain ⟨told, hinner⟩ := ih
    exact ⟨_, .visited hnew hcourse hinner hending⟩

/-! ## Sessions -/

/-- Whether a reference has come to something. -/
def Resolution.contributes (resolution : Resolution) : Bool :=
  match resolution.outcome with
  | .ok (some _) => true
  | _ => false

/-- The references to a file that a journal has resolved, the last one first. -/
def resolutionsOf (location : Location) (journal : List Event) : List Resolution :=
  (resolutions journal).filter (·.location = location)

/-- The history of a file along a course that starts with nothing. -/
theorem Course.story {held : List Location} {ok : Bool} {last : Stage}
    (h : Course held ok ⟨{}, []⟩ last) (location : Location) :
    Story none (last.inclusions.progress? location) (resolutionsOf location last.journal) := by
  obtain ⟨told, htold⟩ := h.chronicle
  have hall : resolutions last.journal = told := by
    have heq := htold.resolutions_eq
    rwa [resolutions, List.append_nil] at heq
  rw [resolutionsOf, hall]
  exact htold.story location

theorem story_session (configDir : Option Path) (methodPrefix : Option String)
    (calls : List (Bundle × Call)) (location : Location) :
    let context := (session calls (.fresh configDir methodPrefix)).2
    Story none (context.inclusions.progress? location)
      (resolutionsOf location context.journal) :=
  (course_session calls (.fresh configDir methodPrefix)).story location

theorem Story.countP_contributes_le_one {after : Option Progress} {told : List Resolution}
    (h : Story none after told) (hvalue : after.bind Progress.value? = none) :
    told.countP Resolution.contributes ≤ 1 := by
  have hidle : ∀ {others : List Resolution}, (∀ other ∈ others, other.outcome = .ok none) →
      others.countP Resolution.contributes = 0 := by
    intro others hothers
    apply List.countP_eq_zero.2
    intro other hother
    simp [Resolution.contributes, hothers other hother]
  cases h with
  | unknown => simp
  | visited hfirst _ hduring hlater =>
    have hnone : Progress.value? _ = none := hvalue
    rw [List.countP_append, List.countP_cons,
      hidle fun other hother => (hnone ▸ (hlater other hother).2),
      hidle fun other hother => (hduring other hother).2.2]
    split <;> omega

/-- The first reference to a file decides about the others. -/
theorem Story.exists_first {progress : Progress} {told : List Resolution}
    (h : Story none (some progress) told) :
    ∃ first ∈ told, Concludes first.outcome progress ∧
      ∀ other ∈ told, other = first ∨ first.began < other.began ∧
        other.outcome = .ok (if other.began < first.ended then none else progress.value?) := by
  cases h with
  | @visited _ first during later hfirst hbounds hduring hlater =>
    refine ⟨first, List.mem_append_right _ List.mem_cons_self, hfirst, ?_⟩
    intro other hother
    rcases List.mem_append.1 hother with hother | hother
    · obtain ⟨hafter, houtcome⟩ := hlater other hother
      right
      rw [if_neg (by omega)]
      exact ⟨by omega, houtcome⟩
    · rcases List.mem_cons.1 hother with rfl | hother
      · exact .inl rfl
      · obtain ⟨hbegan, hwithin, houtcome⟩ := hduring other hother
        right
        rw [if_pos hwithin]
        exact ⟨hbegan, houtcome⟩

/-- Without a value that is kept, nothing comes of a reference that is met after
another one. -/
theorem Story.outcome_eq_none {after : Option Progress} {told : List Resolution}
    (h : Story none after told) (hvalue : after.bind Progress.value? = none)
    {first other : Resolution} (hfirst : first ∈ told) (hother : other ∈ told)
    (hbefore : first.began < other.began) : other.outcome = .ok none := by
  cases after with
  | none =>
    cases h with
    | unknown => cases hfirst
  | some progress =>
    have hnone : progress.value? = none := hvalue
    obtain ⟨start, -, -, hothers⟩ := h.exists_first
    rcases hothers other hother with rfl | ⟨-, houtcome⟩
    · rcases hothers first hfirst with rfl | ⟨hafter, -⟩
      · omega
      · omega
    · rwa [hnone, ite_self] at houtcome

theorem Concludes.of_value {outcome : Except Error (Option Value)} {progress : Progress}
    {value : Value} (h : Concludes outcome progress) (hvalue : progress.value? = some value) :
    outcome = .ok (some value) ∧ Unmarked value := by
  cases h with
  | failed | finished => cases hvalue
  | retained hunmarked =>
    cases hvalue
    exact ⟨rfl, hunmarked⟩

/-- What the references to one file come to in a session.  A file that cannot be
included again contributes at most once, and nothing comes of a reference that
is met after another one.  For a file that can be included again, nothing comes
of the references that are met while the first one is being resolved; the first
one and all later ones come to one value, which no longer has the mark. -/
theorem session_resolutions (configDir : Option Path) (methodPrefix : Option String)
    (calls : List (Bundle × Call)) (location : Location) :
    let context := (session calls (.fresh configDir methodPrefix)).2
    let told := resolutionsOf location context.journal
    (context.inclusions.value? location = none →
      told.countP Resolution.contributes ≤ 1 ∧
        ∀ first ∈ told, ∀ other ∈ told, first.began < other.began →
          other.outcome = .ok none) ∧
    ∀ value, context.inclusions.value? location = some value →
      Unmarked value ∧
        ∃ first ∈ told, first.outcome = .ok (some value) ∧
          ∀ other ∈ told, other = first ∨ first.began < other.began ∧
            other.outcome = .ok (if other.began < first.ended then none else some value) := by
  intro context told
  have hstory : Story none (context.inclusions.progress? location) told :=
    story_session configDir methodPrefix calls location
  rw [Inclusions.value?_eq_bind_progress?]
  constructor
  · intro hvalue
    refine ⟨hstory.countP_contributes_le_one hvalue, ?_⟩
    intro first hfirst other hother hbefore
    exact hstory.outcome_eq_none hvalue hfirst hother hbefore
  · intro value hvalue
    obtain ⟨progress, hprogress, hsome⟩ := Option.bind_eq_some_iff.1 hvalue
    rw [hprogress] at hstory
    obtain ⟨first, hfirst, hconcludes, hothers⟩ := hstory.exists_first
    obtain ⟨houtcome, hunmarked⟩ := hconcludes.of_value hsome
    rw [hsome] at hothers
    exact ⟨hunmarked, first, hfirst, houtcome, hothers⟩

end Routebook
