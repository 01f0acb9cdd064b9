import Routebook.Proofs.Expansion.Session

/-!
# The bookkeeping of inclusions

What a session remembers about inclusions agrees with the files it has read: the
locations are listed in the order of reading.  The list only grows, and what has
been settled about a file stays settled.  A file whose value is kept is listed,
and is not counted as included for good.

After a session without failures every file is settled.  A failure leaves the
files behind that were under way; no later call takes them up again.
-/

namespace Routebook

/-- The location that a step reads, if it reads one. -/
def Event.opened? : Event → Option Location
  | .opened location _ => some location
  | _ => none

/-- The locations that have been read, in order. -/
def openings (journal : List Event) : List Location :=
  (journal.filterMap Event.opened?).reverse

namespace Inclusions

/-- Whether each file whose value is kept is listed, and not as included for
good. -/
def Sound (inclusions : Inclusions) : Prop :=
  ∀ location value, inclusions.value? location = some value →
    inclusions.isKnown location ∧ inclusions.isDone location = false

/-- Whether a file has been included for good or has a value that is kept. -/
def Settled (inclusions : Inclusions) (location : Location) : Prop :=
  inclusions.isDone location ∨ ∃ value, inclusions.value? location = some value

/-- Whether one record of inclusions can follow on another. -/
structure Grows (before after : Inclusions) : Prop where
  locations : before.locations <+: after.locations
  isDone : ∀ location, before.isDone location → after.isDone location
  value? : ∀ location value, before.value? location = some value →
    after.value? location = some value

variable {inclusions a b : Inclusions} {location : Location}

theorem isKnown_of_isDone (h : inclusions.isDone location) : inclusions.isKnown location := by
  rw [isDone] at h
  rw [isKnown]
  cases hlookup : inclusions.finished.lookup location with
  | none => simp [hlookup] at h
  | some done => rfl

theorem Settled.progress?_ne_none (h : inclusions.Settled location) :
    inclusions.progress? location ≠ none := by
  rcases h with hdone | ⟨value, hvalue⟩
  · exact progress?_ne_none_of_isKnown (isKnown_of_isDone hdone)
  · exact progress?_ne_none_of_value hvalue

theorem AgreeAt.settled (hagree : AgreeAt location a b) (h : a.Settled location) :
    b.Settled location := by
  rcases h with hdone | ⟨value, hvalue⟩
  · exact .inl (hagree.isDone_eq ▸ hdone)
  · exact .inr ⟨value, hagree.2 ▸ hvalue⟩

end Inclusions

open Inclusions

/-! ## What is read is listed -/

@[simp] theorem openings_opened (location : Location) (contents : Except ReadFault String)
    (journal : List Event) :
    openings (.opened location contents :: journal) = openings journal ++ [location] := by
  simp [openings, Event.opened?]

@[simp] theorem openings_requested (location : Location) (journal : List Event) :
    openings (.requested location :: journal) = openings journal := rfl

@[simp] theorem openings_resolved (location : Location) (outcome : Except Error (Option Value))
    (journal : List Event) :
    openings (.resolved location outcome :: journal) = openings journal := rfl

@[simp] theorem openings_used (body : Mapping) (journal : List Event) :
    openings (.used body :: journal) = openings journal := rfl

section Courses

variable {held : List Location} {ok : Bool} {first last : Stage}

theorem Ending.locations_eq {location : Location} {outcome : Except Error (Option Value)}
    {before after : Inclusions} (h : Ending location before ok outcome after)
    (hknown : before.isKnown location) : after.locations = before.locations := by
  cases h with
  | failed => rfl
  | finished => exact locations_finish hknown
  | retained => rfl

/-- A course lists what it reads, behind what was listed before. -/
theorem Course.locations_eq (h : Course held ok first last) :
    ∃ new, openings last.journal = openings first.journal ++ new ∧
      last.inclusions.locations = first.inclusions.locations ++ new := by
  induction h with
  | stay | used => exact ⟨[], by simp [Stage.note], by simp [Stage.note]⟩
  | recalled => exact ⟨[], by simp [Stage.note, Stage.leave], by simp [Stage.leave]⟩
  | andThen _ _ ihfirst ihsecond =>
    obtain ⟨new, hopened, hlisted⟩ := ihfirst
    obtain ⟨new', hopened', hlisted'⟩ := ihsecond
    refine ⟨new ++ new', ?_, ?_⟩
    · rw [hopened', hopened, List.append_assoc]
    · rw [hlisted', hlisted, List.append_assoc]
  | @unreadable stage opened hnew =>
    refine ⟨[opened], by simp [Stage.enter, Stage.leave], ?_⟩
    exact locations_start (isKnown_eq_false hnew)
  | @visited _ stage middle opened _ _ _ hnew _ hinner hending ih =>
    obtain ⟨new, hopened, hlisted⟩ := ih
    have hknown : middle.inclusions.isKnown opened := by
      rw [isKnown, (hinner.underway hnew).1]
      rfl
    refine ⟨opened :: new, ?_, ?_⟩
    · rw [Stage.leave, openings_resolved, hopened]
      simp [Stage.enter]
    · rw [Stage.leave, hending.locations_eq hknown, hlisted, Stage.enter]
      rw [locations_start (isKnown_eq_false hnew)]
      simp

/-! ## What is settled stays settled -/

theorem Course.grows (h : Course held ok first last) :
    Grows first.inclusions last.inclusions where
  locations := by
    obtain ⟨new, -, hlisted⟩ := h.locations_eq
    exact ⟨new, hlisted.symm⟩
  isDone location hdone := by
    have hknown := progress?_ne_none_of_isKnown (isKnown_of_isDone hdone)
    rwa [← (h.agreeAt hknown).isDone_eq]
  value? location value hvalue := by
    have hknown := progress?_ne_none_of_value hvalue
    rwa [← (h.agreeAt hknown).2]

/-- A statement about each file carries over to a record that agrees on all files
but one, if it holds of that one. -/
theorem sound_of_agreeAt {before after : Inclusions} {location : Location} (hbefore : before.Sound)
    (hagree : ∀ other, other ≠ location → AgreeAt other before after)
    (hlocation : ∀ value, after.value? location = some value →
      after.isKnown location ∧ after.isDone location = false) : after.Sound := by
  intro other value hvalue
  by_cases hother : other = location
  · subst hother
    exact hlocation value hvalue
  · have hat := hagree other hother
    rw [← hat.isKnown_eq, ← hat.isDone_eq]
    exact hbefore other value (hat.2 ▸ hvalue)

theorem sound_start {inclusions : Inclusions} {location : Location} (h : inclusions.Sound)
    (hnew : inclusions.progress? location = none) : (inclusions.start location).Sound := by
  apply sound_of_agreeAt h fun other hother => agreeAt_start hother inclusions
  intro value hvalue
  have hnone : (inclusions.start location).value? location = none := (progress?_eq_none.1 hnew).2
  rw [hnone] at hvalue
  cases hvalue

theorem Ending.sound {location : Location} {outcome : Except Error (Option Value)}
    {before after : Inclusions} (h : Ending location before ok outcome after)
    (hunderway : before.finished.lookup location = some false)
    (hnone : before.value? location = none) (hbefore : before.Sound) : after.Sound := by
  apply sound_of_agreeAt hbefore fun other hother => h.agreeAt hother
  intro value hvalue
  cases h with
  | failed => exact hbefore location value hvalue
  | finished =>
    have hsame : (before.finish location).value? location = none := hnone
    rw [hsame] at hvalue
    cases hvalue
  | retained => simp [isKnown, isDone, retain, hunderway]

theorem Course.sound (h : Course held ok first last) (hfirst : first.inclusions.Sound) :
    last.inclusions.Sound := by
  induction h with
  | stay | used | recalled => exact hfirst
  | andThen _ _ ihfirst ihsecond => exact ihsecond (ihfirst hfirst)
  | unreadable hnew => exact sound_start hfirst hnew
  | visited hnew _ hinner hending ih =>
    have hmiddle := ih (sound_start hfirst hnew)
    obtain ⟨hunderway, hnone⟩ := hinner.underway hnew
    exact hending.sound hunderway hnone hmiddle

/-! ## What success settles -/

theorem Ending.settled {location : Location} {value : Option Value}
    {before after : Inclusions} (h : Ending location before ok (.ok value) after) :
    after.Settled location := by
  cases h with
  | finished => exact .inl (isDone_finish before location)
  | retained => exact .inr ⟨_, value?_retain before location _⟩

theorem Ending.ok_eq {location : Location} {value : Option Value} {before after : Inclusions}
    (h : Ending location before ok (.ok value) after) : ok = true := by
  cases h with
  | finished | retained => rfl

/-- A course without failures settles every file that it meets first. -/
theorem Course.settled (h : Course held ok first last) (hok : ok = true) {location : Location}
    (hlast : last.inclusions.isKnown location) :
    first.inclusions.isKnown location ∨ last.inclusions.Settled location := by
  induction h with
  | stay | used | recalled => exact .inl hlast
  | andThen _ hsecond ihfirst ihsecond =>
    obtain ⟨hok₁, hok₂⟩ := Bool.and_eq_true_iff.1 hok
    rcases ihsecond hok₂ hlast with hmiddle | hsettled
    · rcases ihfirst hok₁ hmiddle with hfirst | hsettled
      · exact .inl hfirst
      · exact .inr ((hsecond.agreeAt hsettled.progress?_ne_none).settled hsettled)
    · exact .inr hsettled
  | unreadable => cases hok
  | @visited _ stage _ opened _ outcome _ _ _ _ hending ih =>
    cases outcome with
    | error error => cases hok
    | ok value =>
      by_cases hother : location = opened
      · subst hother
        exact .inr hending.settled
      · have hstart := agreeAt_start hother stage.inclusions
        have hagree := hending.agreeAt hother
        rcases ih hending.ok_eq (hagree.isKnown_eq ▸ hlast) with hentered | hsettled
        · exact .inl (hstart.isKnown_eq ▸ hentered)
        · exact .inr (hagree.settled hsettled)

end Courses

/-! ## Sessions -/

/-- The bookkeeping of a session, and of what comes after it. -/
theorem session_bookkeeping (configDir : Option Path) (methodPrefix : Option String)
    (calls later : List (Bundle × Call)) :
    let (results, context) := session calls (.fresh configDir methodPrefix)
    let after := (session (calls ++ later) (.fresh configDir methodPrefix)).2
    openings context.journal = context.inclusions.locations ∧
      context.inclusions.Sound ∧
      Grows context.inclusions after.inclusions ∧
      (results.all Except.isOk →
        ∀ location ∈ context.inclusions.locations, context.inclusions.Settled location) := by
  have hcourse := course_session calls (.fresh configDir methodPrefix)
  have hlater := course_session later (session calls (.fresh configDir methodPrefix)).2
  refine ⟨?_, ?_, ?_, ?_⟩
  · obtain ⟨new, hopened, hlisted⟩ := hcourse.locations_eq
    exact hopened.trans hlisted.symm
  · apply hcourse.sound
    intro location value hvalue
    cases hvalue
  · rw [session_append]
    exact hlater.grows
  · intro hok location hlocation
    rcases hcourse.settled hok (mem_locations.1 hlocation) with hknown | hsettled
    · cases hknown
    · exact hsettled

end Routebook
