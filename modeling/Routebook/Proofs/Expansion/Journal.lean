import Routebook.Proofs.Expansion.Course

/-!
# Reading the journal

The journal says when each reference was met and when it was resolved.  Reading
it up to a moment gives the references that are being resolved at the moment,
one inside the other, and those that have been resolved before.

Moments are counted in steps of the journal.
-/

namespace Routebook

/-- A reference that is being resolved. -/
structure Pending where
  location : Location
  /-- How many steps came before. -/
  began : Nat
  /-- Whether the text of its file is being expanded. -/
  expanding : Bool

/-- A reference that has been resolved. -/
structure Resolution where
  location : Location
  /-- How many steps came before the reference was met. -/
  began : Nat
  /-- How many steps came before it was resolved. -/
  ended : Nat
  outcome : Except Error (Option Value)

/-- The references that are being resolved after the steps of a journal, the
innermost one first. -/
def pending : List Event → List Pending
  | [] => []
  | .requested location :: earlier => ⟨location, earlier.length, false⟩ :: pending earlier
  | .opened _ contents :: earlier =>
    (pending earlier).modifyHead fun top => { top with expanding := contents.isOk }
  | .resolved .. :: earlier => (pending earlier).tail
  | .used _ :: earlier => pending earlier

/-- The references that have been resolved, the last one first. -/
def resolutions : List Event → List Resolution
  | [] => []
  | .resolved location outcome :: earlier =>
    let began := ((pending earlier).head?.map (·.began)).getD earlier.length
    ⟨location, began, earlier.length, outcome⟩ :: resolutions earlier
  | .requested _ :: earlier | .opened .. :: earlier | .used _ :: earlier => resolutions earlier

section Stages

variable {held : List Location} {ok : Bool} {first last : Stage}

@[simp] theorem pending_enter (stage : Stage) (location : Location)
    (contents : Except ReadFault String) :
    pending (stage.enter location contents).journal =
      ⟨location, stage.journal.length, contents.isOk⟩ :: pending stage.journal := rfl

@[simp] theorem pending_leave (stage : Stage) (location : Location)
    (outcome : Except Error (Option Value)) (inclusions : Inclusions) :
    pending (stage.leave location outcome inclusions).journal = (pending stage.journal).tail := rfl

theorem Stage.journal_suffix_enter (stage : Stage) (location : Location)
    (contents : Except ReadFault String) :
    stage.journal <:+ (stage.enter location contents).journal :=
  ⟨[.opened location contents, .requested location], rfl⟩

/-- Whatever a course starts to resolve it has resolved in the end. -/
theorem Course.pending_eq (h : Course held ok first last) :
    pending last.journal = pending first.journal := by
  induction h with
  | stay | used | recalled | unreadable => rfl
  | andThen _ _ ihfirst ihsecond => exact ihsecond.trans ihfirst
  | visited _ _ _ _ ih => rw [pending_leave, ih, pending_enter, List.tail_cons]

/-- The journal only grows. -/
theorem Course.journal_suffix (h : Course held ok first last) :
    first.journal <:+ last.journal := by
  induction h with
  | stay => exact List.suffix_refl _
  | used => exact List.suffix_cons _ _
  | recalled => exact ⟨[_, _], rfl⟩
  | unreadable => exact ⟨[_, _, _], rfl⟩
  | andThen _ _ ihfirst ihsecond => exact ihfirst.trans ihsecond
  | visited _ _ _ _ ih =>
    exact ((Stage.journal_suffix_enter ..).trans ih).trans (List.suffix_cons _ _)

/-- A file that becomes known has been asked for. -/
theorem Course.exists_requested (h : Course held ok first last) {location : Location}
    (hnew : first.inclusions.progress? location = none)
    (hknown : last.inclusions.progress? location ≠ none) :
    ∃ new, last.journal = new ++ first.journal ∧ .requested location ∈ new := by
  induction h with
  | stay | used | recalled => exact absurd hnew hknown
  | @andThen _ _ first middle last hfirst hsecond ihfirst ihsecond =>
    obtain ⟨new, hjournal⟩ := hfirst.journal_suffix
    obtain ⟨new', hjournal'⟩ := hsecond.journal_suffix
    by_cases hmiddle : middle.inclusions.progress? location = none
    · obtain ⟨later, hlater, hmem⟩ := ihsecond hmiddle hknown
      refine ⟨later ++ new, ?_, List.mem_append_left _ hmem⟩
      rw [hlater, ← hjournal, List.append_assoc]
    · obtain ⟨earlier, hearlier, hmem⟩ := ihfirst hnew hmiddle
      refine ⟨new' ++ earlier, ?_, List.mem_append_right _ hmem⟩
      rw [← hjournal', hearlier, List.append_assoc]
  | @unreadable stage opened =>
    have hopened : location = opened := by
      by_contra hother
      exact hknown ((Inclusions.agreeAt_start hother stage.inclusions).progress?_eq ▸ hnew)
    exact ⟨[_, _, _], rfl, by simp [hopened]⟩
  | @visited _ stage middle opened text outcome inclusions _ _ hinner hending ih =>
    obtain ⟨new, hjournal⟩ := hinner.journal_suffix
    by_cases hopened : location = opened
    · refine ⟨.resolved opened outcome ::
        (new ++ [.opened opened (.ok text), .requested opened]), ?_, by simp [hopened]⟩
      rw [Stage.leave, ← hjournal, Stage.enter]
      simp
    · have hentered : (stage.enter opened (.ok text)).inclusions.progress? location = none :=
        (Inclusions.agreeAt_start hopened stage.inclusions).progress?_eq ▸ hnew
      have hmiddle : middle.inclusions.progress? location ≠ none :=
        (hending.agreeAt hopened).progress?_eq ▸ hknown
      obtain ⟨inside, hinside, hmem⟩ := ih hentered hmiddle
      refine ⟨.resolved opened outcome ::
        (inside ++ [.opened opened (.ok text), .requested opened]), ?_, by simp [hmem]⟩
      rw [Stage.leave, hinside, Stage.enter]
      simp

end Stages

end Routebook
