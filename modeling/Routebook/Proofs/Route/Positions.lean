import Mathlib.Data.List.Forall2
import Routebook.Route.Visit

/-!
# Positions in a tree of routes

A position says which of the routes on top to take, which of the routes below
that one, and so on, by their indices.  Routes that look alike stand at different
positions.

The visits of a document go through all positions in ascending order: a position
comes before those below it, and what is below one route comes before what is
below a later one.
-/

namespace Routebook

namespace Route

/-- The routes on the way to a position, the outermost one first and the one at
the position last, if the way stays in the tree. -/
def along? : List Route → List Nat → Option (List Route)
  | _, [] => some []
  | routes, index :: rest =>
    match routes[index]? with
    | none => none
    | some route => (along? route.routes rest).map (route :: ·)

/-- Whether a route stands at a position, below the given ones. -/
def StandsAt (routes : List Route) (position : List Nat) (around : List Route)
    (route : Route) : Prop :=
  along? routes position = some (around ++ [route])

/-- Whether a route stands at a position. -/
def IsPosition (routes : List Route) (position : List Nat) : Prop :=
  ∃ around route, StandsAt routes position around route

mutual

/-- The positions of a route and the routes below it, seen from the route. -/
def positionsOf : Route → List (List Nat)
  | ⟨_, _, routes⟩ => [] :: positionsFrom 0 routes

/-- The positions of routes next to each other, the first of which has the given
index, and of those below them. -/
def positionsFrom (index : Nat) : List Route → List (List Nat)
  | [] => []
  | route :: rest => (positionsOf route).map (index :: ·) ++ positionsFrom (index + 1) rest

end

/-! ## The way to a position -/

section Ways

variable {routes around : List Route} {route child : Route} {position : List Nat} {index : Nat}

theorem along?_cons (h : routes[index]? = some route) (rest : List Nat) :
    along? routes (index :: rest) = (along? route.routes rest).map (route :: ·) := by
  rw [along?, h]

theorem along?_cons_eq_some {way : List Route} {rest : List Nat}
    (h : along? routes (index :: rest) = some way) :
    ∃ route below, routes[index]? = some route ∧ along? route.routes rest = some below ∧
      way = route :: below := by
  rw [along?] at h
  cases hroute : routes[index]? with
  | none =>
    rw [hroute] at h
    cases h
  | some route =>
    rw [hroute] at h
    obtain ⟨below, hbelow, rfl⟩ := Option.map_eq_some_iff.1 h
    exact ⟨route, below, rfl, hbelow, rfl⟩

theorem length_eq_of_along? {way : List Route} (h : along? routes position = some way) :
    way.length = position.length := by
  induction position generalizing routes way with
  | nil =>
    cases h
    rfl
  | cons index rest ih =>
    obtain ⟨route, below, -, hbelow, rfl⟩ := along?_cons_eq_some h
    rw [List.length_cons, List.length_cons, ih hbelow]

theorem StandsAt.unique {around' : List Route} {route' : Route}
    (h : StandsAt routes position around route) (h' : StandsAt routes position around' route') :
    around = around' ∧ route = route' := by
  have hway : around ++ [route] = around' ++ [route'] := Option.some.inj (h.symm.trans h')
  simpa using hway

theorem not_standsAt_nil : ¬ StandsAt routes [] around route := by
  rw [StandsAt, along?]
  simp

/-- A route stands at a position of one index, or the position leads on from the
outermost route around it. -/
theorem standsAt_cons_cases (h : StandsAt routes (index :: position) around route) :
    (around = [] ∧ position = [] ∧ routes[index]? = some route) ∨
    ∃ outermost inner, around = outermost :: inner ∧ routes[index]? = some outermost ∧
      StandsAt outermost.routes position inner route := by
  obtain ⟨first, below, hfirst, hbelow, hway⟩ := along?_cons_eq_some h
  cases around with
  | nil =>
    obtain ⟨rfl, rfl⟩ : route = first ∧ below = [] := by simpa [eq_comm] using hway
    exact .inl ⟨rfl, List.length_eq_zero_iff.1 (length_eq_of_along? hbelow).symm, hfirst⟩
  | cons outermost inner =>
    obtain ⟨rfl, rfl⟩ : outermost = first ∧ below = inner ++ [route] := by
      simpa [eq_comm] using hway
    exact .inr ⟨outermost, inner, rfl, hfirst, hbelow⟩

theorem standsAt_singleton (h : routes[index]? = some route) :
    StandsAt routes [index] [] route := by
  rw [StandsAt, along?_cons h]
  rfl

theorem standsAt_cons {outermost : Route} (houtermost : routes[index]? = some outermost)
    (h : StandsAt outermost.routes position around route) :
    StandsAt routes (index :: position) (outermost :: around) route := by
  rw [StandsAt, along?_cons houtermost, h]
  rfl

theorem standsAt_top (h : StandsAt routes position [] route) :
    ∃ index, position = [index] ∧ routes[index]? = some route := by
  cases position with
  | nil => exact absurd h not_standsAt_nil
  | cons index rest =>
    obtain ⟨-, rfl, hroute⟩ | ⟨_, _, hnil, -⟩ := standsAt_cons_cases h
    · exact ⟨index, rfl, hroute⟩
    · cases hnil

/-- A position leads on to another one below the route that stands there. -/
theorem along?_append (h : StandsAt routes position around route) (rest : List Nat) :
    along? routes (position ++ rest) =
      (along? route.routes rest).map ((around ++ [route]) ++ ·) := by
  induction position generalizing routes around with
  | nil => exact absurd h not_standsAt_nil
  | cons index position ih =>
    obtain ⟨rfl, rfl, hroute⟩ | ⟨outermost, inner, rfl, houtermost, hinner⟩ :=
      standsAt_cons_cases h
    · rw [List.cons_append, along?_cons hroute]
      rfl
    · rw [List.cons_append, along?_cons houtermost, ih hinner, Option.map_map]
      rfl

theorem standsAt_child (h : StandsAt routes position around route)
    (hchild : route.routes[index]? = some child) :
    StandsAt routes (position ++ [index]) (around ++ [route]) child := by
  rw [StandsAt, along?_append h, along?_cons hchild]
  rfl

/-- The routes around a route stand on the way to it. -/
theorem standsAt_parent {parent : Route} (h : StandsAt routes position (around ++ [parent]) route) :
    ∃ outer index, position = outer ++ [index] ∧ StandsAt routes outer around parent ∧
      parent.routes[index]? = some route := by
  induction position generalizing routes around with
  | nil => exact absurd h not_standsAt_nil
  | cons index position ih =>
    obtain ⟨hnil, -⟩ | ⟨outermost, inner, heq, houtermost, hinner⟩ := standsAt_cons_cases h
    · simp at hnil
    cases around with
    | nil =>
      obtain ⟨rfl, rfl⟩ : parent = outermost ∧ [] = inner := by simpa using heq
      obtain ⟨last, rfl, hlast⟩ := standsAt_top hinner
      exact ⟨[index], last, rfl, standsAt_singleton houtermost, hlast⟩
    | cons first around =>
      obtain ⟨rfl, rfl⟩ : first = outermost ∧ around ++ [parent] = inner := by simpa using heq
      obtain ⟨outer, last, rfl, houter, hlast⟩ := ih hinner
      exact ⟨index :: outer, last, rfl, standsAt_cons houtermost houter, hlast⟩

end Ways

/-! ## All positions -/

mutual

theorem mem_positionsOf : ∀ (route : Route) (position : List Nat),
    position ∈ positionsOf route ↔ (along? route.routes position).isSome
  | ⟨_, _, routes⟩, [] => by simp [positionsOf, along?]
  | ⟨_, _, routes⟩, index :: rest => by
    rw [positionsOf, List.mem_cons, mem_positionsFrom routes 0]
    simp

/-- A position among routes next to each other has an index of one of them, and
goes on below it. -/
theorem mem_positionsFrom : ∀ (routes : List Route) (index : Nat) (position : List Nat),
    position ∈ positionsFrom index routes ↔
      ∃ offset rest, position = (index + offset) :: rest ∧
        (along? routes (offset :: rest)).isSome
  | [], index, position => by simp [positionsFrom, along?]
  | route :: others, index, position => by
    rw [positionsFrom, List.mem_append, List.mem_map, mem_positionsFrom others]
    constructor
    · rintro (⟨rest, hrest, rfl⟩ | ⟨offset, rest, rfl, hway⟩)
      · refine ⟨0, rest, rfl, ?_⟩
        rw [along?_cons (by rfl), Option.isSome_map]
        exact (mem_positionsOf route rest).1 hrest
      · exact ⟨offset + 1, rest, by simp [Nat.add_comm, Nat.add_left_comm], hway⟩
    · rintro ⟨offset, rest, rfl, hway⟩
      cases offset with
      | zero =>
        rw [along?_cons (by rfl), Option.isSome_map] at hway
        exact .inl ⟨rest, (mem_positionsOf route rest).2 hway, rfl⟩
      | succ offset =>
        exact .inr ⟨offset, rest, by simp [Nat.add_comm, Nat.add_left_comm], hway⟩

end

theorem mem_positionsFrom_zero {routes : List Route} {position : List Nat} :
    position ∈ positionsFrom 0 routes ↔ IsPosition routes position := by
  rw [mem_positionsFrom]
  constructor
  · rintro ⟨offset, rest, rfl, hway⟩
    rw [Nat.zero_add]
    obtain ⟨way, hway⟩ := Option.isSome_iff_exists.1 hway
    obtain ⟨first, below, -, -, rfl⟩ := along?_cons_eq_some hway
    obtain ⟨around, route, hlast⟩ :=
      (List.eq_nil_or_concat (first :: below)).resolve_left (by simp)
    exact ⟨around, route, hway.trans (congrArg some (by simpa using hlast))⟩
  · rintro ⟨around, route, hstands⟩
    cases position with
    | nil => exact absurd hstands not_standsAt_nil
    | cons index rest =>
      rw [StandsAt] at hstands
      exact ⟨index, rest, by rw [Nat.zero_add], by rw [hstands]; rfl⟩

mutual

theorem pairwise_positionsOf : ∀ route : Route, (positionsOf route).Pairwise (· < ·)
  | ⟨_, _, routes⟩ => by
    rw [positionsOf, List.pairwise_cons]
    refine ⟨?_, pairwise_positionsFrom routes 0⟩
    intro position hposition
    obtain ⟨offset, rest, rfl, -⟩ := (mem_positionsFrom routes 0 position).1 hposition
    exact List.nil_lt_cons _ rest

/-- Positions are listed in ascending order. -/
theorem pairwise_positionsFrom : ∀ (routes : List Route) (index : Nat),
    (positionsFrom index routes).Pairwise (· < ·)
  | [], _ => by simp [positionsFrom]
  | route :: others, index => by
    rw [positionsFrom, List.pairwise_append, List.pairwise_map]
    refine ⟨?_, pairwise_positionsFrom others (index + 1), ?_⟩
    · refine (pairwise_positionsOf route).imp ?_
      exact fun hlt => List.cons_lt_cons_iff.2 (.inr ⟨rfl, hlt⟩)
    · intro position hposition other hother
      obtain ⟨rest, -, rfl⟩ := List.mem_map.1 hposition
      obtain ⟨offset, below, rfl, -⟩ := (mem_positionsFrom others (index + 1) other).1 hother
      exact List.cons_lt_cons_iff.2 (.inl (by omega))

end

theorem nodup_positionsFrom (routes : List Route) (index : Nat) :
    (positionsFrom index routes).Nodup := by
  refine (pairwise_positionsFrom routes index).imp ?_
  rintro position other hlt rfl
  exact List.lt_irrefl position hlt

mutual

theorem length_positionsOf : ∀ route : Route, (positionsOf route).length = route.count
  | ⟨_, _, routes⟩ => by
    rw [positionsOf, List.length_cons, length_positionsFrom routes 0, count, Nat.add_comm]

theorem length_positionsFrom : ∀ (routes : List Route) (index : Nat),
    (positionsFrom index routes).length = countAll routes
  | [], _ => rfl
  | route :: others, index => by
    rw [positionsFrom, List.length_append, List.length_map, length_positionsOf route,
      length_positionsFrom others, countAll]

end

/-! ## The positions below a route -/

section Blocks

theorem index_eq_of_nodup {α : Type} {list : List α} {item : α} {i j : Nat} (hnodup : list.Nodup)
    (hi : list[i]? = some item) (hj : list[j]? = some item) : i = j := by
  obtain ⟨hbound, -⟩ := List.getElem?_eq_some_iff.1 hi
  exact (List.getElem?_inj hbound hnodup).1 (hi.trans hj.symm)

theorem mem_middle_iff {α : Type} {before block after : List α} {item : α} {index : Nat}
    (hnodup : (before ++ block ++ after).Nodup)
    (hitem : (before ++ block ++ after)[index]? = some item) :
    item ∈ block ↔ before.length ≤ index ∧ index < before.length + block.length := by
  have hblock : ∀ offset < block.length,
      (before ++ block ++ after)[before.length + offset]? = block[offset]? := by
    intro offset hoffset
    rw [List.append_assoc, List.getElem?_append_right (Nat.le_add_right _ _),
      Nat.add_sub_cancel_left, List.getElem?_append_left hoffset]
  constructor
  · intro hmem
    obtain ⟨offset, hoffset, rfl⟩ := List.getElem_of_mem hmem
    have hthere := (hblock offset hoffset).trans (List.getElem?_eq_getElem hoffset)
    have hindex := index_eq_of_nodup hnodup hitem hthere
    omega
  · rintro ⟨hle, hlt⟩
    obtain ⟨offset, rfl⟩ := Nat.exists_eq_add_of_le hle
    rw [hblock offset (by omega)] at hitem
    exact List.mem_of_getElem? hitem

variable {routes around : List Route} {route : Route} {position : List Nat}

theorem positionsOf_eq (route : Route) :
    positionsOf route = [] :: positionsFrom 0 route.routes := by
  obtain ⟨details, options, routes⟩ := route
  rw [positionsOf]

theorem exists_positionsFrom_eq {offset : Nat} (h : routes[offset]? = some route) (index : Nat) :
    ∃ before after, positionsFrom index routes =
      before ++ (positionsOf route).map ((index + offset) :: ·) ++ after := by
  induction routes generalizing index offset with
  | nil => cases h
  | cons first others ih =>
    cases offset with
    | zero =>
      obtain rfl : first = route := by simpa using h
      exact ⟨[], positionsFrom (index + 1) others, by rw [positionsFrom]; rfl⟩
    | succ offset =>
      obtain ⟨before, after, hsplit⟩ := ih (by simpa using h) (index + 1)
      refine ⟨(positionsOf first).map (index :: ·) ++ before, after, ?_⟩
      rw [positionsFrom, hsplit, Nat.add_assoc index 1, Nat.add_comm 1]
      simp only [List.append_assoc]

/-- The positions below a route are listed without others in between. -/
theorem exists_positionsFrom_zero_eq (h : StandsAt routes position around route) :
    ∃ before after, positionsFrom 0 routes =
      before ++ (positionsOf route).map (position ++ ·) ++ after := by
  induction position generalizing routes around with
  | nil => exact absurd h not_standsAt_nil
  | cons index position ih =>
    obtain ⟨rfl, rfl, hroute⟩ | ⟨outermost, inner, rfl, houtermost, hinner⟩ :=
      standsAt_cons_cases h
    · obtain ⟨before, after, hsplit⟩ := exists_positionsFrom_eq hroute 0
      rw [Nat.zero_add] at hsplit
      exact ⟨before, after, hsplit⟩
    · obtain ⟨before, after, hsplit⟩ := exists_positionsFrom_eq houtermost 0
      rw [Nat.zero_add] at hsplit
      obtain ⟨within, behind, hwithin⟩ := ih hinner
      refine ⟨before ++ ([] :: within).map (index :: ·), behind.map (index :: ·) ++ after, ?_⟩
      rw [hsplit, positionsOf_eq, hwithin]
      simp [Function.comp_def]

/-- Among the positions, those that lead on from a given one are those below the
route that stands there. -/
theorem isPrefix_iff_mem {other : List Nat} (h : StandsAt routes position around route)
    (hother : other ∈ positionsFrom 0 routes) :
    position <+: other ↔ other ∈ (positionsOf route).map (position ++ ·) := by
  rw [List.mem_map]
  constructor
  · rintro ⟨rest, rfl⟩
    obtain ⟨way, last, hway⟩ := mem_positionsFrom_zero.1 hother
    rw [StandsAt, along?_append h] at hway
    obtain ⟨below, hbelow, -⟩ := Option.map_eq_some_iff.1 hway
    exact ⟨rest, (mem_positionsOf route rest).2 (by rw [hbelow]; rfl), rfl⟩
  · rintro ⟨rest, -, rfl⟩
    exact List.prefix_append position rest

end Blocks

end Route

/-! ## Visits -/

/-- Whether a visit of a document is the one at a position. -/
structure Document.VisitsAt (document : Document) (position : List Nat) (visit : Visit) :
    Prop where
  document_eq : visit.document = document
  standsAt : Route.StandsAt document.routes position visit.ancestors visit.route
  depth_eq : visit.depth + 1 = position.length

theorem Document.visitsAt_of_standsAt {document : Document} {position : List Nat}
    {around : List Route} {route : Route}
    (h : Route.StandsAt document.routes position around route) :
    document.VisitsAt position ⟨document, around, route⟩ where
  document_eq := rfl
  standsAt := h
  depth_eq := by
    rw [← Route.length_eq_of_along? h, List.length_append]
    rfl

namespace Tour

/-- Whether a walk has gone on from one state to another by the visits at the
given positions, and is back at the place where it was. -/
structure Covers (document : Document) (positions : List (List Nat)) (before after : Tour) :
    Prop where
  ancestors_eq : after.ancestors = before.ancestors
  exists_visits : ∃ visits, after.visits = before.visits ++ visits ∧
    List.Forall₂ document.VisitsAt positions visits

section Walks

variable {document : Document}

theorem Covers.refl (tour : Tour) : Covers document [] tour tour :=
  ⟨rfl, [], (List.append_nil _).symm, .nil⟩

theorem Covers.trans {positions others : List (List Nat)} {first second third : Tour}
    (h : Covers document positions first second) (h' : Covers document others second third) :
    Covers document (positions ++ others) first third := by
  obtain ⟨visits, hvisits, hall⟩ := h.exists_visits
  obtain ⟨further, hfurther, hall'⟩ := h'.exists_visits
  refine ⟨h'.ancestors_eq.trans h.ancestors_eq, visits ++ further, ?_, List.rel_append hall hall'⟩
  rw [hfurther, hvisits, List.append_assoc]

mutual

/-- Visiting a route visits the positions of the route and of those below it. -/
theorem covers_enter : ∀ (route : Route) (position : List Nat) (tour : Tour),
    Route.StandsAt document.routes position tour.ancestors route →
      Covers document ((Route.positionsOf route).map (position ++ ·)) tour
        (enter document tour route)
  | ⟨details, options, routes⟩, position, tour => by
    intro hstands
    let route : Route := ⟨details, options, routes⟩
    let visit : Visit := ⟨document, tour.ancestors, route⟩
    have hinside := covers_enterAll routes 0 position
      ⟨tour.ancestors ++ [route], tour.visits ++ [visit]⟩ (by
        intro offset child hchild
        rw [Nat.zero_add]
        exact Route.standsAt_child hstands hchild)
    obtain ⟨visits, hvisits, hall⟩ := hinside.exists_visits
    rw [Route.positionsOf, enter, List.map_cons, List.append_nil]
    constructor
    · -- The route itself is the last one around the routes below it.
      change List.dropLast _ = _
      rw [hinside.ancestors_eq, List.dropLast_concat]
    · refine ⟨visit :: visits, ?_, .cons (Document.visitsAt_of_standsAt hstands) hall⟩
      rw [hvisits, List.append_assoc]
      rfl

/-- Visiting routes next to each other visits their positions and those below
them. -/
theorem covers_enterAll : ∀ (routes : List Route) (index : Nat) (position : List Nat)
    (tour : Tour),
    (∀ (offset : Nat) (route : Route), routes[offset]? = some route →
      Route.StandsAt document.routes (position ++ [index + offset]) tour.ancestors route) →
      Covers document ((Route.positionsFrom index routes).map (position ++ ·)) tour
        (enterAll document tour routes)
  | [], _, _, tour => fun _ => Covers.refl tour
  | route :: others, index, position, tour => by
    intro hroutes
    have hfirst := covers_enter route (position ++ [index]) tour (hroutes 0 route rfl)
    have hothers := covers_enterAll others (index + 1) position (enter document tour route) (by
      intro offset other hother
      rw [hfirst.ancestors_eq, Nat.add_assoc, Nat.add_comm 1]
      exact hroutes (offset + 1) other hother)
    rw [Route.positionsFrom, enterAll, List.map_append, List.map_map]
    simpa [Function.comp_def] using hfirst.trans hothers

end

end Walks

end Tour

namespace Document

variable {document : Document}

theorem visitsAt_visits (document : Document) :
    List.Forall₂ document.VisitsAt (Route.positionsFrom 0 document.routes) document.visits := by
  have htops : ∀ (offset : Nat) (route : Route), document.routes[offset]? = some route →
      Route.StandsAt document.routes ([] ++ [0 + offset]) [] route := by
    intro offset route hroute
    rw [Nat.zero_add]
    exact Route.standsAt_singleton hroute
  have hcovers := Tour.covers_enterAll document.routes 0 [] ⟨[], []⟩ htops
  obtain ⟨all, hvisits, hall⟩ := hcovers.exists_visits
  rw [visits, hvisits]
  simpa using hall

theorem length_visits (document : Document) : document.visits.length = document.routeCount := by
  rw [← (visitsAt_visits document).length_eq, Route.length_positionsFrom, routeCount]

theorem visitsAt_of_getElem? {index : Nat} {position : List Nat} {visit : Visit}
    (hposition : (Route.positionsFrom 0 document.routes)[index]? = some position)
    (hvisit : document.visits[index]? = some visit) : document.VisitsAt position visit := by
  obtain ⟨hbound, rfl⟩ := List.getElem?_eq_some_iff.1 hposition
  obtain ⟨hbound', rfl⟩ := List.getElem?_eq_some_iff.1 hvisit
  exact (List.forall₂_iff_get.1 (visitsAt_visits document)).2 index hbound hbound'

/-- The visits are those of the routes that stand at a position. -/
theorem mem_visits_iff {visit : Visit} : visit ∈ document.visits ↔
    visit.document = document ∧
      ∃ position, Route.StandsAt document.routes position visit.ancestors visit.route := by
  have hlength := (visitsAt_visits document).length_eq
  constructor
  · intro hvisit
    obtain ⟨index, hbound, rfl⟩ := List.getElem_of_mem hvisit
    have hat := visitsAt_of_getElem? (List.getElem?_eq_getElem (hlength ▸ hbound))
      (List.getElem?_eq_getElem hbound)
    exact ⟨hat.document_eq, _, hat.standsAt⟩
  · rintro ⟨hdocument, position, hstands⟩
    have hposition := Route.mem_positionsFrom_zero.2 ⟨_, _, hstands⟩
    obtain ⟨index, hbound, rfl⟩ := List.getElem_of_mem hposition
    have hat := visitsAt_of_getElem? (List.getElem?_eq_getElem hbound)
      (List.getElem?_eq_getElem (hlength ▸ hbound))
    obtain ⟨hancestors, hroute⟩ := hat.standsAt.unique hstands
    have heq : document.visits[index] = visit := by
      rw [Visit.mk.injEq]
      exact ⟨hat.document_eq.trans hdocument.symm, hancestors, hroute⟩
    exact heq ▸ List.getElem_mem _

/-- What is below a position is visited in one go, from the visit of the position on. -/
theorem exists_block {start : Nat} {position : List Nat} {visit : Visit}
    (hposition : (Route.positionsFrom 0 document.routes)[start]? = some position)
    (hvisit : document.visits[start]? = some visit) :
    ∃ before after, before.length = start ∧ Route.positionsFrom 0 document.routes =
      before ++ (Route.positionsOf visit.route).map (position ++ ·) ++ after := by
  have hstands := (visitsAt_of_getElem? hposition hvisit).standsAt
  obtain ⟨before, after, hsplit⟩ := Route.exists_positionsFrom_zero_eq hstands
  have hfirst : (Route.positionsFrom 0 document.routes)[before.length]? = some position := by
    rw [hsplit, Route.positionsOf_eq]
    simp
  have hnodup := Route.nodup_positionsFrom document.routes 0
  exact ⟨before, after, Route.index_eq_of_nodup hnodup hfirst hposition, hsplit⟩

/-- What it means that visits go through a document. -/
structure Enumerates (document : Document) (positions : List (List Nat)) (visits : List Visit) :
    Prop where
  /-- The positions come in lexicographic order, so each of them once, before those
  below it and with those after those below the earlier ones next to it. -/
  ascending : positions.Pairwise (· < ·)
  mem_iff : ∀ position, position ∈ positions ↔ Route.IsPosition document.routes position
  /-- There is one visit for each position, in the same order. -/
  visitsAt : List.Forall₂ document.VisitsAt positions visits
  length_eq : visits.length = document.routeCount
  /-- As many visits as there are routes below a route, the route included, follow in
  one go: those of the positions that lead on from its own. -/
  block : ∀ (start : Nat) (position : List Nat) (visit : Visit),
    positions[start]? = some position → visits[start]? = some visit →
      start + visit.route.count ≤ visits.length ∧
      ∀ (index : Nat) (other : List Nat), positions[index]? = some other →
        (position <+: other ↔ start ≤ index ∧ index < start + visit.route.count)

theorem enumerates_visits (document : Document) :
    document.Enumerates (Route.positionsFrom 0 document.routes) document.visits where
  ascending := Route.pairwise_positionsFrom document.routes 0
  mem_iff _ := Route.mem_positionsFrom_zero
  visitsAt := visitsAt_visits document
  length_eq := length_visits document
  block := by
    intro start position visit hposition hvisit
    have hstands := (visitsAt_of_getElem? hposition hvisit).standsAt
    have hcount := Route.length_positionsOf visit.route
    obtain ⟨before, after, rfl, hsplit⟩ := exists_block hposition hvisit
    constructor
    · have hlength := (visitsAt_visits document).length_eq
      rw [hsplit, List.length_append, List.length_append, List.length_map, hcount] at hlength
      omega
    · intro index other hother
      have hnodup := Route.nodup_positionsFrom document.routes 0
      rw [Route.isPrefix_iff_mem hstands (List.mem_of_getElem? hother)]
      rw [hsplit] at hother hnodup
      rw [Route.mem_middle_iff hnodup hother, List.length_map, hcount]

end Document

end Routebook
