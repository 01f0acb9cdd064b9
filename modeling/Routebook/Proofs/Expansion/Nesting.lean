import Routebook.Proofs.Expansion.Journal
import Routebook.Proofs.Expansion.Recursion

/-!
# How deep files are nested

At every moment of an expansion, the files that are being expanded are different
files of the bundle, none of which was known when the expansion started.  So
references are nested at most as deep as there are such files, and one level
deeper for a last look-up.

The moments of a run are the ends of its journal that reach back at least to the
journal at its start.
-/

namespace Routebook

/-- What holds of the references that are being resolved at a moment, the
innermost one first, if a run has started with the given inclusions. -/
structure Nested (held : List Location) (inclusions : Inclusions) (nested : List Pending) :
    Prop where
  /-- All but the innermost are expanding a file. -/
  expanding : ∀ outer ∈ nested.tail, outer.expanding = true
  distinct : ((nested.filter (·.expanding)).map (·.location)).Nodup
  mem_held : ∀ outer ∈ nested, outer.expanding → outer.location ∈ held
  unknown : ∀ outer ∈ nested, outer.expanding → inclusions.progress? outer.location = none

namespace Nested

variable {held : List Location} {inclusions : Inclusions} {nested : List Pending}

theorem nil (held : List Location) (inclusions : Inclusions) : Nested held inclusions [] := by
  constructor <;> simp

/-- A reference whose file has not been read. -/
theorem requested (held : List Location) (inclusions : Inclusions) (location : Location)
    (began : Nat) : Nested held inclusions [⟨location, began, false⟩] := by
  constructor <;> simp

/-- What was unknown at a later start was unknown before. -/
theorem of_unknown {before : Inclusions} (h : Nested held inclusions nested)
    (hbefore : ∀ location, inclusions.progress? location = none →
      before.progress? location = none) : Nested held before nested where
  expanding := h.expanding
  distinct := h.distinct
  mem_held := h.mem_held
  unknown outer houter hexpanding := hbefore _ (h.unknown outer houter hexpanding)

/-- What is nested inside a file that is met for the first time. -/
theorem inside {location : Location} {began : Nat} (hheld : location ∈ held)
    (hnew : inclusions.progress? location = none)
    (h : Nested held (inclusions.start location) nested) :
    Nested held inclusions (nested ++ [⟨location, began, true⟩]) := by
  have hother : ∀ outer ∈ nested, outer.expanding →
      inclusions.progress? outer.location = none ∧ outer.location ≠ location := by
    intro outer houter hexpanding
    have hunknown := h.unknown outer houter hexpanding
    by_cases hlocation : outer.location = location
    · rw [hlocation, Inclusions.progress?_start hnew] at hunknown
      cases hunknown
    · rw [← (Inclusions.agreeAt_start hlocation inclusions).progress?_eq] at hunknown
      exact ⟨hunknown, hlocation⟩
  constructor
  · intro outer houter
    cases nested with
    | nil => cases houter
    | cons top below =>
      rcases List.mem_append.1 houter with houter | houter
      · exact h.expanding outer houter
      · rw [List.mem_singleton.1 houter]
  · rw [List.filter_append, List.map_append, List.nodup_append]
    refine ⟨h.distinct, by simp, ?_⟩
    intro inner hinner outer houter
    obtain ⟨reference, hreference, rfl⟩ := List.mem_map.1 hinner
    obtain ⟨hmem, hexpanding⟩ := List.mem_filter.1 hreference
    have hlocation : outer = location := by simpa using houter
    rw [hlocation]
    exact (hother reference hmem hexpanding).2
  · intro outer houter hexpanding
    rcases List.mem_append.1 houter with houter | houter
    · exact h.mem_held outer houter hexpanding
    · rw [List.mem_singleton.1 houter]
      exact hheld
  · intro outer houter hexpanding
    rcases List.mem_append.1 houter with houter | houter
    · exact (hother outer houter hexpanding).1
    · rw [List.mem_singleton.1 houter]
      exact hnew

/-- The nesting is no deeper than there are files, and one level more. -/
theorem length_le (h : Nested held inclusions nested) : nested.length ≤ held.length + 1 := by
  cases nested with
  | nil => simp
  | cons top below =>
    have hbelow : below.filter (·.expanding) = below := List.filter_eq_self.2 h.expanding
    have hdistinct : (below.map (·.location)).Nodup := by
      have hall := h.distinct
      rw [List.filter_cons] at hall
      split at hall
      · rw [hbelow] at hall
        exact (List.nodup_cons.1 hall).2
      · rwa [hbelow] at hall
    have hsub : below.map (·.location) ⊆ held := by
      intro location hlocation
      obtain ⟨outer, houter, rfl⟩ := List.mem_map.1 hlocation
      exact h.mem_held outer (List.mem_cons_of_mem _ houter) (h.expanding outer houter)
    have hlength := hdistinct.length_le_of_subset hsub
    rw [List.length_map] at hlength
    rw [List.length_cons]
    omega

end Nested

/-! ## The moments of a run -/

/-- Whether references are properly nested at a moment of a run. -/
def NestedAt (held : List Location) (start : Stage) (moment : List Event) : Prop :=
  ∃ nested, pending moment = nested ++ pending start.journal ∧
    Nested held start.inclusions nested

section Moments

variable {held : List Location} {stage : Stage} {moment : List Event} {location : Location}

/-- A moment when the same references are being resolved as at the start. -/
theorem nestedAt_of_pending_eq (h : pending moment = pending stage.journal) :
    NestedAt held stage moment :=
  ⟨[], h, .nil held stage.inclusions⟩

theorem nestedAt_requested :
    NestedAt held stage (.requested location :: stage.journal) :=
  ⟨[_], rfl, .requested held stage.inclusions location stage.journal.length⟩

/-- The only moment of a run that has not gone on is its start. -/
theorem eq_of_suffix_of_suffix {journal : List Event} (hstart : journal <:+ moment)
    (hend : moment <:+ journal) : moment = journal :=
  hend.eq_of_length_le hstart.length_le

theorem nestedAt_of_suffix (hstart : stage.journal <:+ moment) (hend : moment <:+ stage.journal) :
    NestedAt held stage moment := by
  apply nestedAt_of_pending_eq
  rw [eq_of_suffix_of_suffix hstart hend]

theorem nestedAt_of_suffix_requested (hstart : stage.journal <:+ moment)
    (hend : moment <:+ .requested location :: stage.journal) : NestedAt held stage moment := by
  rcases List.suffix_cons_iff.1 hend with rfl | hend
  · exact nestedAt_requested
  · exact nestedAt_of_suffix hstart hend

end Moments

/-- At every moment of a course the references are properly nested. -/
theorem Course.nestedAt {held : List Location} {ok : Bool} {first last : Stage}
    (h : Course held ok first last) {moment : List Event} (hstart : first.journal <:+ moment)
    (hend : moment <:+ last.journal) : NestedAt held first moment := by
  induction h with
  | stay => exact nestedAt_of_suffix hstart hend
  | used =>
    rcases List.suffix_cons_iff.1 hend with rfl | hend
    · exact nestedAt_of_pending_eq rfl
    · exact nestedAt_of_suffix hstart hend
  | recalled =>
    rcases List.suffix_cons_iff.1 hend with rfl | hend
    · exact nestedAt_of_pending_eq rfl
    · exact nestedAt_of_suffix_requested hstart hend
  | @andThen _ _ first middle _ hfirst hsecond ihfirst ihsecond =>
    -- Every moment comes before or after the one between the two runs.
    rcases List.suffix_or_suffix_of_suffix hend hsecond.journal_suffix with hbefore | hafter
    · exact ihfirst hstart hbefore
    · obtain ⟨nested, hpending, hnested⟩ := ihsecond hafter hend
      rw [hfirst.pending_eq] at hpending
      refine ⟨nested, hpending, hnested.of_unknown ?_⟩
      intro location hnew
      by_contra hknown
      exact hknown ((hfirst.agreeAt hknown).progress?_eq.trans hnew)
  | @unreadable stage location =>
    rcases List.suffix_cons_iff.1 hend with rfl | hend
    · exact nestedAt_of_pending_eq rfl
    · rcases List.suffix_cons_iff.1 hend with rfl | hend
      · exact ⟨_, rfl, .requested held _ location stage.journal.length⟩
      · exact nestedAt_of_suffix_requested hstart hend
  | @visited _ stage middle location text _ _ hnew hheld hinner _ ih =>
    rcases List.suffix_cons_iff.1 hend with rfl | hend
    · apply nestedAt_of_pending_eq
      rw [pending, hinner.pending_eq]
      rfl
    · rcases List.suffix_or_suffix_of_suffix hend hinner.journal_suffix with hbefore | hafter
      · rcases List.suffix_cons_iff.1 hbefore with rfl | hbefore
        · exact ⟨_, rfl, (Nested.nil held _).inside hheld hnew⟩
        · exact nestedAt_of_suffix_requested hstart hbefore
      · obtain ⟨nested, hpending, hnested⟩ := ih hafter hend
        refine ⟨nested ++ [⟨location, stage.journal.length, true⟩], ?_, ?_⟩
        · rw [hpending, pending_enter, List.append_assoc]
          rfl
        · exact hnested.inside hheld hnew

/-- Expanding a value ends, whatever the files of a bundle refer to.  The plain
recursion goes no deeper than there are files, and one level more; at every
moment the files that are being expanded are different files of the bundle that
were not known before. -/
theorem expand_nesting (bundle : Bundle) (context : Context) (schema : Schema) (value : Value) :
    let run := (expand (resolve bundle) schema value).runFrom context
    (∀ beyond : Resolver,
      (expand (resolveWithin beyond bundle (bundle.size + 1)) schema value).runFrom context =
        run) ∧
    context.journal <:+ run.2.journal ∧
    ∀ moment, context.journal <:+ moment → moment <:+ run.2.journal →
      ∃ nested, pending moment = nested ++ pending context.journal ∧
        Nested bundle.locations context.inclusions nested ∧
        nested.length ≤ bundle.size + 1 := by
  intro run
  have hcourse := traces_expand (traces_resolve bundle) schema value context
  refine ⟨?_, hcourse.journal_suffix, ?_⟩
  · intro beyond
    have hsame : ∀ reference, SameWhile
        (fun inclusions => (unread bundle inclusions).length < bundle.size + 1)
        (resolveWithin beyond bundle (bundle.size + 1) reference) (resolve bundle reference) := by
      intro reference other hother
      refine ⟨runFrom_resolveWithin beyond bundle reference hother, ?_⟩
      exact Nat.lt_succ_of_le (length_unread_le bundle _)
    have hstart := length_unread_le bundle context.inclusions
    exact (sameWhile_expand hsame schema value context (Nat.lt_succ_of_le hstart)).1
  · intro moment hstart hend
    obtain ⟨nested, hpending, hnested⟩ := hcourse.nestedAt hstart hend
    have hlength := hnested.length_le
    rw [bundle.length_locations] at hlength
    exact ⟨nested, hpending, hnested, hlength⟩

end Routebook
