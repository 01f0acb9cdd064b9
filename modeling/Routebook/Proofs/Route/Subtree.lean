import Routebook.Proofs.Route.Inheritance
import Routebook.Proofs.Route.Levels

/-!
# The subtree of a route

An entry of a mapping, or of a mapping inside it, makes a route at a position.  The
visits of the routes below it are at the positions that go on from there.

The path of such a visit is the path of the route around the subtree, with the
segments of the routes on the way added to it.
-/

namespace Routebook

/-! ## From entries to routes -/

/-- Whether a position leads to an entry, by the indices of the entries that stand for
routes.  Only the entries of mappings are entered. -/
inductive Leads : Level → Mapping → List Nat → Level → Value × Value → Prop
  | here {level : Level} {entries : Mapping} {index : Nat} {entry : Value × Value}
      (hentry : (entries.filter level.startsRoute)[index]? = some entry) :
    Leads level entries [index] level entry
  | inside {level innermost : Level} {entries inner : Mapping} {index : Nat} {position : List Nat}
      {key : Value} {entry : Value × Value}
      (houter : (entries.filter level.startsRoute)[index]? = some (key, .mapping inner))
      (hinner : Leads .route inner position innermost entry) :
    Leads level entries (index :: position) innermost entry

section Mirrors

variable {level innermost : Level} {routes : List Route} {entries : Mapping} {key value : Value}

/-- At each place the routes stand for the entry of the same place. -/
theorem AllMirror.exists_route (h : AllMirror level routes entries) {index : Nat}
    (hentry : entries[index]? = some (key, value)) :
    ∃ route, routes[index]? = some route ∧ key.name? = some route.name ∧
      (∀ parent, buildRoute parent route.name (level.promotionOf? key) value = .ok route) ∧
      ∃ own, value.asFields? "description" = some own ∧ route.Mirrors own := by
  induction routes generalizing entries index with
  | nil =>
    cases entries with
    | nil => cases hentry
    | cons entry others => exact h.elim
  | cons first rest ih =>
    cases entries with
    | nil => exact h.elim
    | cons entry others =>
      obtain ⟨firstKey, firstValue⟩ := entry
      rw [AllMirror] at h
      obtain ⟨hname, hbuild, hown, hrest⟩ := h
      cases index with
      | zero =>
        cases hentry
        exact ⟨first, rfl, hname, hbuild, hown⟩
      | succ index => exact ih hrest hentry

/-- The route of an entry stands at the position that leads to the entry. -/
theorem AllMirror.exists_standsAt {position : List Nat} {entry : Value × Value}
    (h : AllMirror level routes (entries.filter level.startsRoute))
    (hleads : Leads level entries position innermost entry) :
    ∃ around route, Route.StandsAt routes position around route ∧
      entry.1.name? = some route.name ∧
      ∀ parent, buildRoute parent route.name (innermost.promotionOf? entry.1) entry.2 =
        .ok route := by
  induction hleads generalizing routes with
  | here hentry =>
    obtain ⟨route, hroute, hname, hbuild, -⟩ := h.exists_route hentry
    exact ⟨[], route, Route.standsAt_singleton hroute, hname, hbuild⟩
  | inside houter hinner ih =>
    obtain ⟨outer, hroute, -, -, own, hown, hmirrors⟩ := h.exists_route houter
    cases hown
    obtain ⟨around, route, hstands, hbuilt⟩ := ih hmirrors.routes
    exact ⟨outer :: around, route, Route.standsAt_cons hroute hstands, hbuilt⟩

end Mirrors

/-! ## Paths in a subtree -/

namespace Visit

/-- A path with segments added to it. -/
def extendPath (path : String) (segments : List String) : String :=
  if segments = [] then path
  else (if path = "/" then "" else path) ++ "/" ++ Text.join '/' segments

/-- The path that the surroundings of a visit pass on. -/
def outerPath (visit : Visit) : String :=
  (visit.around?.map Visit.path).getD "/"

section Paths

variable {visit own : Visit} {inside : List Route}

theorem outerPath_eq (visit : Visit) :
    visit.outerPath = "/" ++ Text.join '/' (visit.ancestors.flatMap ownSegments) ∧
      (visit.outerPath = "/" ↔ visit.ancestors.flatMap ownSegments = []) := by
  rw [outerPath]
  cases haround : visit.around? with
  | none =>
    rw [ancestors_of_around?_eq_none haround]
    exact ⟨rfl, iff_of_true rfl rfl⟩
  | some parent =>
    obtain ⟨-, hancestors⟩ := ancestors_of_around? haround
    have hsegments : parent.segments = visit.ancestors.flatMap ownSegments := by
      rw [segments_eq, hancestors]
    rw [← hsegments]
    exact ⟨rfl, path_eq_slash_iff⟩

/-- The path of a visit in the subtree of another one. -/
theorem path_of_inside
    (h : visit.ancestors ++ [visit.route] = own.ancestors ++ own.route :: inside) :
    visit.path =
      extendPath own.outerPath (ownSegments own.route ++ inside.flatMap ownSegments) := by
  obtain ⟨hpath, hslash⟩ := own.outerPath_eq
  have hsegments : visit.segments = own.ancestors.flatMap ownSegments ++
      (ownSegments own.route ++ inside.flatMap ownSegments) := by
    rw [segments_eq, h, List.flatMap_append, List.flatMap_cons]
  generalize ownSegments own.route ++ inside.flatMap ownSegments = added at hsegments ⊢
  rw [Visit.path, hsegments, extendPath]
  by_cases hadded : added = []
  · rw [if_pos hadded, hadded, List.append_nil, hpath]
  · rw [if_neg hadded, if_congr hslash rfl rfl]
    by_cases houter : own.ancestors.flatMap ownSegments = []
    · rw [if_pos houter, houter]
      rfl
    · rw [if_neg houter, hpath, Text.join_append '/' houter hadded]
      simp only [String.append_assoc]
      rfl

/-- All visits in the subtree of a virtual route are virtual. -/
theorem isVirtual_of_inside
    (h : visit.ancestors ++ [visit.route] = own.ancestors ++ own.route :: inside)
    (hvirtual : own.route.details.isVirtual) : visit.isVirtual := by
  have hlineage : visit.lineage = (own.ancestors ++ own.route :: inside).reverse := by
    rw [← h, List.reverse_concat]
    rfl
  rw [isVirtual, hlineage, List.any_reverse, List.any_append, List.any_cons, hvirtual]
  simp

end Paths

end Visit

/-- The visits below a position are those of the routes on the way from the route that
stands there. -/
theorem Document.VisitsAt.exists_inside {document : Document} {position below : List Nat}
    {own visit : Visit} (hown : document.VisitsAt position own)
    (h : document.VisitsAt (position ++ below) visit) :
    ∃ inside, Route.along? own.route.routes below = some inside ∧
      visit.ancestors ++ [visit.route] = own.ancestors ++ own.route :: inside := by
  have hway := h.standsAt
  rw [Route.StandsAt, Route.along?_append hown.standsAt] at hway
  obtain ⟨inside, hinside, heq⟩ := Option.map_eq_some_iff.1 hway
  exact ⟨inside, hinside, by rw [← heq, List.append_assoc]; rfl⟩

end Routebook
