import Routebook.Proofs.Expansion.Journal
import Routebook.Proofs.Route.Subtree

/-!
# Arriving at an entry

The expansion of a mapping comes to the entries one after the other, and in the value
of an entry to the entries of that value.  When it arrives at an entry, everything
before the entry has been expanded, and so it is settled at which position the route
of the entry is going to stand: after the routes of what has come out so far.
-/

namespace Routebook

/-- Whether the expansion of the entries at a level, from a context, arrives at an entry
in another context, and the position at which the route of the entry is going to stand.
On the way it goes through mappings that stand for routes, and through no tag. -/
inductive Arrives (resolver : Resolver) (schema : Schema) (entry : Value × Value) :
    Level → Mapping → Context → List Nat → Level → Context → Prop
  | here {level : Level} {before after done : Mapping} {context reached : Context}
      (hbefore : (expandEntries resolver schema before).runFrom context = (.ok done, reached)) :
    Arrives resolver schema entry level (before ++ entry :: after) context
      [(done.filter level.startsRoute).length] level reached
  | inside {level innermost : Level} {before after done inner : Mapping} {key : Value}
      {context between reached : Context} {position : List Nat}
      (hbefore : (expandEntries resolver schema before).runFrom context = (.ok done, between))
      (hkey : level.startsRoute (key, .mapping inner))
      (hinner : Arrives resolver schema entry .route inner between position innermost reached) :
    Arrives resolver schema entry level (before ++ (key, .mapping inner) :: after) context
      ((done.filter level.startsRoute).length :: position) innermost reached

section Walks

variable {resolver : Resolver} {schema : Schema} {level innermost : Level}
  {entries result : Mapping} {entry : Value × Value} {position : List Nat}
  {context reached last : Context}

/-- The entries before an entry, the entry itself, and those after it are expanded one
after the other. -/
theorem of_runFrom_expandEntries_append {before after : Mapping} {key value : Value}
    (hrun : (expandEntries resolver schema (before ++ (key, value) :: after)).runFrom context =
      (.ok result, last)) :
    ∃ done middle first later rest,
      (expandEntries resolver schema before).runFrom context = (.ok done, middle) ∧
      (expand resolver schema value).runFrom middle = (.ok first, later) ∧
      result = done ++ (first.map (key, ·)).toList ++ rest := by
  induction before generalizing context result with
  | nil =>
    rw [List.nil_append, expandEntries] at hrun
    obtain ⟨first, later, hfirst, hrun⟩ := Expansion.runFrom_bind_eq_ok hrun
    obtain ⟨rest, last, -, hrun⟩ := Expansion.runFrom_bind_eq_ok hrun
    cases hrun
    refine ⟨[], context, first, later, rest, ?_, hfirst, rfl⟩
    rw [expandEntries]
    rfl
  | cons head before ih =>
    obtain ⟨headKey, headValue⟩ := head
    rw [List.cons_append, expandEntries] at hrun
    obtain ⟨head, between, hhead, hrun⟩ := Expansion.runFrom_bind_eq_ok hrun
    obtain ⟨others, last, hothers, hrun⟩ := Expansion.runFrom_bind_eq_ok hrun
    cases hrun
    obtain ⟨done, middle, first, later, rest, hdone, hfirst, rfl⟩ := ih hothers
    refine ⟨(head.map (headKey, ·)).toList ++ done, middle, first, later, rest, ?_, hfirst, ?_⟩
    · rw [expandEntries, Expansion.runFrom_bind, hhead]
      dsimp only
      rw [Expansion.runFrom_bind, hdone]
      rfl
    · simp only [List.append_assoc]

/-- What comes after the entries that stand for routes is the next one of them. -/
theorem getElem?_filter_startsRoute (done rest : Mapping) (hentry : level.startsRoute entry) :
    ((done ++ [entry] ++ rest).filter level.startsRoute)[(done.filter level.startsRoute).length]? =
      some entry := by
  simp [List.filter_append, hentry]

/-- The position that is settled on the way leads to what has become of the entry. -/
theorem Arrives.leads {value : Value} {after : Context}
    (h : Arrives resolver schema entry level entries context position innermost reached)
    (hrun : (expandEntries resolver schema entries).runFrom context = (.ok result, last))
    (hentry : (expand resolver schema entry.2).runFrom reached = (.ok (some value), after))
    (hstarts : innermost.startsRoute (entry.1, value)) :
    Leads level result position innermost (entry.1, value) := by
  induction h generalizing result last with
  | @here level before _ done context reached hbefore =>
    obtain ⟨done', middle, first, later, rest, hdone, hfirst, rfl⟩ :=
      of_runFrom_expandEntries_append hrun
    obtain ⟨rfl, rfl⟩ : done = done' ∧ reached = middle := by simpa [hbefore] using hdone
    obtain ⟨rfl, -⟩ : some value = first ∧ after = later := by simpa [hentry] using hfirst
    exact .here (getElem?_filter_startsRoute done rest hstarts)
  | @inside level innermost before _ done inner key context between reached position hbefore hkey
      hinner ih =>
    obtain ⟨done', middle, first, later, rest, hdone, hfirst, rfl⟩ :=
      of_runFrom_expandEntries_append hrun
    obtain ⟨rfl, rfl⟩ : done = done' ∧ between = middle := by simpa [hbefore] using hdone
    rw [expand] at hfirst
    obtain ⟨innerResult, later, hinside, hfirst⟩ := Expansion.runFrom_bind_eq_ok hfirst
    cases hfirst
    -- Whether a mapping stands for a route depends on its key only.
    have houter : level.startsRoute (key, .mapping innerResult) := hkey
    exact .inside (getElem?_filter_startsRoute done rest houter) (ih hinside hentry hstarts)

/-- On the way to an entry the expansion takes a course. -/
theorem Arrives.course {held : List Location}
    (h : Arrives resolver schema entry level entries context position innermost reached)
    (hresolver : ∀ reference, Traces held (resolver reference)) :
    ∃ ok, Course held ok context.stage reached.stage := by
  induction h with
  | @here level before _ _ context _ hbefore =>
    have hcourse := traces_expandEntries hresolver schema before context
    rw [hbefore] at hcourse
    exact ⟨_, hcourse⟩
  | @inside level innermost before _ _ _ _ context between _ _ hbefore _ _ ih =>
    have hcourse := traces_expandEntries hresolver schema before context
    rw [hbefore] at hcourse
    obtain ⟨ok, hinner⟩ := ih
    exact ⟨_, hcourse.andThen hinner⟩

/-- A file that was not known at first and has not been asked for is not known when the
expansion arrives at an entry. -/
theorem Arrives.progress?_eq_none {held : List Location} {location : Location}
    (h : Arrives resolver schema entry level entries context position innermost reached)
    (hresolver : ∀ reference, Traces held (resolver reference))
    (hnew : context.inclusions.progress? location = none)
    (hfirst : .requested location ∉ reached.journal) :
    reached.inclusions.progress? location = none := by
  by_contra hknown
  obtain ⟨ok, hcourse⟩ := h.course hresolver
  obtain ⟨new, hjournal, hrequested⟩ := hcourse.exists_requested hnew hknown
  have hmem : .requested location ∈ reached.stage.journal :=
    hjournal ▸ List.mem_append_left _ hrequested
  exact hfirst hmem

end Walks

end Routebook
