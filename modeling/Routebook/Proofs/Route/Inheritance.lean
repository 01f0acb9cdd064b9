import Mathlib.Data.List.DropRight
import Routebook.Proofs.Route.Positions

/-!
# What routes inherit

A visit looks for what its route does not say among all the routes around it, and
builds its path from all of them.  This file shows that it need not look that far:
what the visit of the route directly around says is enough, and for a route on
top what the document says.

A route adds to the path what is left of its segment without slashes at both ends,
if anything is.  So every path starts with a slash, and no path but `/` ends with
one.
-/

namespace Routebook

namespace Text

/-! ## Texts without a character at both ends -/

/-- Whether a text is another one, but for occurrences of a character at both ends,
and has no more of them there. -/
structure Strips (c : Char) (text core : String) : Prop where
  exists_eq : ∃ before after,
    text.toList = List.replicate before c ++ core.toList ++ List.replicate after c
  head?_ne : core.toList.head? ≠ some c
  getLast?_ne : core.toList.getLast? ≠ some c

section Strips

variable {c : Char} {text : String}

theorem exists_replicate_append_dropWhile (c : Char) (chars : List Char) :
    ∃ count, chars = List.replicate count c ++ chars.dropWhile (· = c) := by
  induction chars with
  | nil => exact ⟨0, rfl⟩
  | cons first rest ih =>
    by_cases hfirst : first = c
    · obtain ⟨count, hcount⟩ := ih
      refine ⟨count + 1, ?_⟩
      rw [List.dropWhile_cons_of_pos (by simpa using hfirst), hfirst, List.replicate_succ,
        List.cons_append, ← hcount]
    · exact ⟨0, by rw [List.dropWhile_cons_of_neg (by simpa using hfirst)]; rfl⟩

theorem head?_dropWhile_ne (c : Char) (chars : List Char) :
    (chars.dropWhile (· = c)).head? ≠ some c := by
  intro h
  have hnot := List.head?_dropWhile_not (· = c) chars
  rw [h] at hnot
  simp at hnot

theorem toList_trim (c : Char) (text : String) :
    (trim c text).toList = (text.toList.dropWhile (· = c)).rdropWhile (· = c) := by
  rw [trim, String.toList_ofList]
  rfl

theorem strips_trim (c : Char) (text : String) : Strips c text (trim c text) := by
  obtain ⟨before, hbefore⟩ := exists_replicate_append_dropWhile c text.toList
  obtain ⟨after, hafter⟩ :=
    exists_replicate_append_dropWhile c (text.toList.dropWhile (· = c)).reverse
  have hcore : text.toList.dropWhile (· = c) =
      (trim c text).toList ++ List.replicate after c := by
    rw [toList_trim, List.rdropWhile, ← List.reverse_inj, List.reverse_append,
      List.reverse_reverse, List.reverse_replicate]
    exact hafter
  constructor
  · exact ⟨before, after, by rw [List.append_assoc, ← hcore, ← hbefore]⟩
  · intro hfirst
    have hhead := head?_dropWhile_ne c text.toList
    rw [hcore, List.head?_append, hfirst] at hhead
    exact hhead rfl
  · rw [toList_trim, List.rdropWhile, List.getLast?_reverse]
    exact head?_dropWhile_ne c _

/-- Nothing is left of a text only if it consists of the character. -/
theorem Strips.eq_empty_iff {core : String} (h : Strips c text core) :
    core = "" ↔ ∀ other ∈ text.toList, other = c := by
  obtain ⟨before, after, htext⟩ := h.exists_eq
  constructor
  · rintro rfl other hother
    rw [htext] at hother
    have hother : other ∈ List.replicate before c ++ List.replicate after c := by
      simpa using hother
    rw [List.replicate_append_replicate] at hother
    exact List.eq_of_mem_replicate hother
  · intro hall
    rw [← String.toList_eq_nil_iff]
    cases hcore : core.toList with
    | nil => rfl
    | cons first rest =>
      have hfirst : first ∈ text.toList := by simp [htext, hcore]
      exact absurd (by rw [hcore, List.head?_cons, hall first hfirst]) h.head?_ne

end Strips

theorem join_append (separator : Char) {texts others : List String} (h : texts ≠ [])
    (hothers : others ≠ []) :
    join separator (texts ++ others) =
      join separator texts ++ String.singleton separator ++ join separator others := by
  induction texts with
  | nil => exact absurd rfl h
  | cons first rest ih =>
    rw [List.cons_append, join, String.intercalate_cons_of_ne_nil (by simp [hothers]), ← join]
    cases rest with
    | nil => simp [join]
    | cons second rest =>
      rw [ih (by simp)]
      simp only [join, String.intercalate_cons_cons, String.append_assoc]

/-- Joined texts end with the last of them. -/
theorem join_concat (separator : Char) {texts : List String} (h : texts ≠ []) (last : String) :
    join separator (texts ++ [last]) =
      join separator texts ++ String.singleton separator ++ last := by
  rw [join_append separator h (by simp)]
  simp [join]

end Text

namespace Visit

/-! ## The segments of a path -/

/-- What a route adds to the path: what is left of its segment, if anything is. -/
def ownSegments (route : Route) : List String :=
  ((route.details.path.bind RoutePath.segment?).toList.map (Text.trim '/')).filter
    fun segment => segment != ""

/-- Whether a route has no segment, or one of slashes only. -/
def AddsNothing (route : Route) : Prop :=
  ∀ text, route.details.path = some (.segment text) → ∀ c ∈ text.toList, c = '/'

section Segments

variable {visit : Visit} {route : Route} {segments : List String} {last : String}

theorem segments_eq (visit : Visit) :
    visit.segments = (visit.ancestors ++ [visit.route]).flatMap ownSegments := by
  rw [Visit.segments, List.filterMap_eq_flatMap_toList, List.map_flatMap, List.filter_flatMap]
  rfl

/-- A route adds nothing to the path, or what is left of its segment. -/
theorem ownSegments_cases (route : Route) :
    (AddsNothing route ∧ ownSegments route = []) ∨
    ∃ text own, route.details.path = some (.segment text) ∧ Text.Strips '/' text own ∧
      own ≠ "" ∧ ownSegments route = [own] := by
  rw [ownSegments, AddsNothing]
  cases hpath : route.details.path with
  | none => exact .inl ⟨by simp, rfl⟩
  | some path =>
    cases path with
    | shared => exact .inl ⟨by simp, rfl⟩
    | segment text =>
      have hstrips := Text.strips_trim '/' text
      by_cases hempty : Text.trim '/' text = ""
      · refine .inl ⟨?_, by simp [RoutePath.segment?, hempty]⟩
        rintro other ⟨⟩
        exact hstrips.eq_empty_iff.1 hempty
      · exact .inr ⟨text, _, rfl, hstrips, hempty, by simp [RoutePath.segment?, hempty]⟩

/-- A segment that is left is not empty and does not end with a slash. -/
theorem getLast?_of_mem_segments (h : last ∈ visit.segments) :
    ∃ c, last.toList.getLast? = some c ∧ c ≠ '/' := by
  rw [segments_eq, List.mem_flatMap] at h
  obtain ⟨route, -, hlast⟩ := h
  obtain ⟨-, hnil⟩ | ⟨text, own, -, hstrips, hown, hsingle⟩ := ownSegments_cases route
  · simp [hnil] at hlast
  · obtain rfl : last = own := by simpa [hsingle] using hlast
    cases hchar : last.toList.getLast? with
    | none => exact absurd (by simpa using hchar) hown
    | some c => exact ⟨c, rfl, fun hc => hstrips.getLast?_ne (by rw [hchar, hc])⟩

/-- A path has a slash in front of every segment, or is a single slash. -/
theorem path_of_segments_concat (h : visit.segments = segments ++ [last]) :
    visit.path = (if segments = [] then "" else "/" ++ Text.join '/' segments) ++ "/" ++ last := by
  rw [path, h]
  by_cases hsegments : segments = []
  · rw [hsegments, if_pos rfl]
    simp [Text.join]
  · rw [if_neg hsegments, Text.join_concat '/' hsegments, String.append_assoc, String.append_assoc,
      String.append_assoc]
    rfl

theorem getLast?_path (h : visit.segments ≠ []) :
    ∃ c, visit.path.toList.getLast? = some c ∧ c ≠ '/' := by
  obtain ⟨segments, last, hsegments⟩ := (List.eq_nil_or_concat visit.segments).resolve_left h
  rw [List.concat_eq_append] at hsegments
  obtain ⟨c, hc, hslash⟩ := getLast?_of_mem_segments (hsegments ▸ List.mem_concat_self)
  refine ⟨c, ?_, hslash⟩
  rw [path_of_segments_concat hsegments, String.toList_append, List.getLast?_append, hc]
  rfl

theorem path_eq_slash_iff : visit.path = "/" ↔ visit.segments = [] := by
  constructor
  · intro hpath
    by_contra hsegments
    obtain ⟨c, hc, hslash⟩ := getLast?_path hsegments
    rw [hpath] at hc
    exact hslash (Option.some.inj hc).symm
  · intro hsegments
    rw [path, hsegments]
    rfl

end Segments

end Visit

/-! ## Taking over from the surroundings -/

/-- What a route can take over from its surroundings. -/
structure Heritage where
  path : String
  controller? : Option String
  http? : Option String
  option? : String → Option Value
  isVirtual : Bool

/-- What a document passes on to the routes on top. -/
def Document.heritage (document : Document) : Heritage where
  path := "/"
  controller? := document.controller
  http? := none
  option? := document.option?
  isVirtual := false

namespace Visit

/-- What a visit passes on to the routes directly below. -/
def heritage (visit : Visit) : Heritage where
  path := visit.path
  controller? := visit.controller?
  http? := visit.http?
  option? := visit.option?
  isVirtual := visit.isVirtual

/-- The visit of the route directly around. -/
def around? (visit : Visit) : Option Visit :=
  visit.ancestors.getLast?.map fun parent =>
    ⟨visit.document, visit.ancestors.dropLast, parent⟩

/-- Whether a visit says what its route says, and what its surroundings pass on
where the route does not say anything. -/
structure Continues (visit : Visit) (around : Heritage) : Prop where
  controller?_eq : visit.controller? = visit.route.details.controller.or around.controller?
  http?_eq : visit.http? = visit.route.details.http.or around.http?
  option?_eq : ∀ name,
    visit.option? name = (visit.route.options.lookup name).or (around.option? name)
  isVirtual_iff : visit.isVirtual ↔ visit.route.details.isVirtual ∨ around.isVirtual
  path_eq : AddsNothing visit.route → visit.path = around.path
  path_eq_append : ∀ text, visit.route.details.path = some (.segment text) →
    ¬ AddsNothing visit.route → ∃ own, Text.Strips '/' text own ∧
      visit.path = (if around.path = "/" then "" else around.path) ++ "/" ++ own

section Surroundings

variable {visit parent : Visit} {lineage : List Route} {segments : List String}

theorem ancestors_of_around? (h : visit.around? = some parent) :
    parent.document = visit.document ∧ visit.ancestors = parent.ancestors ++ [parent.route] := by
  obtain ⟨route, hroute, rfl⟩ := Option.map_eq_some_iff.1 h
  exact ⟨rfl, (List.dropLast_append_getLast? route hroute).symm⟩

theorem ancestors_of_around?_eq_none (h : visit.around? = none) : visit.ancestors = [] := by
  simpa [around?] using h

theorem findSome?_cons {α β : Type} (f : α → Option β) (first : α) (rest : List α) :
    (first :: rest).findSome? f = (f first).or (rest.findSome? f) := by
  rw [List.findSome?_cons]
  cases f first <;> rfl

/-- A visit looks at its own route first and at the routes around it after that. -/
theorem continues_of_lineage (hlineage : visit.lineage = visit.route :: lineage)
    (hsegments : visit.segments = segments ++ ownSegments visit.route)
    (hslash : "/" ++ Text.join '/' segments = "/" ↔ segments = []) :
    visit.Continues
      { path := "/" ++ Text.join '/' segments
        controller? := (lineage.findSome? fun route => route.details.controller).or
          visit.document.controller
        http? := lineage.findSome? fun route => route.details.http
        option? := fun name => (lineage.findSome? fun route => route.options.lookup name).or
          (visit.document.option? name)
        isVirtual := lineage.any fun route => route.details.isVirtual } where
  controller?_eq := by rw [controller?, hlineage, findSome?_cons, Option.or_assoc]
  http?_eq := by rw [http?, hlineage, findSome?_cons]
  option?_eq name := by rw [option?, hlineage, findSome?_cons, Option.or_assoc]
  isVirtual_iff := by rw [isVirtual, hlineage, List.any_cons, Bool.or_eq_true]
  path_eq hnothing := by
    obtain ⟨-, hown⟩ | ⟨text, own, htext, hstrips, hempty, -⟩ := ownSegments_cases visit.route
    · rw [Visit.path, hsegments, hown, List.append_nil]
    · exact absurd (hstrips.eq_empty_iff.2 (hnothing text htext)) hempty
  path_eq_append text htext hadds := by
    obtain ⟨hnothing, -⟩ | ⟨other, own, hother, hstrips, -, hown⟩ := ownSegments_cases visit.route
    · exact absurd hnothing hadds
    · obtain rfl : text = other := by simpa [htext] using hother
      rw [hown] at hsegments
      refine ⟨own, hstrips, ?_⟩
      rw [path_of_segments_concat hsegments, if_congr hslash rfl rfl]

/-- A visit below another one takes over what that one says. -/
theorem continues_around (h : visit.around? = some parent) : visit.Continues parent.heritage := by
  obtain ⟨hdocument, hancestors⟩ := ancestors_of_around? h
  have hlineage : visit.lineage = visit.route :: parent.lineage := by
    rw [Visit.lineage, Visit.lineage, hancestors, List.reverse_concat]
  have hsegments : visit.segments = parent.segments ++ ownSegments visit.route := by
    rw [segments_eq, segments_eq, hancestors, List.flatMap_append]
    simp
  have hcontinues := continues_of_lineage hlineage hsegments path_eq_slash_iff
  rw [← hdocument] at hcontinues
  exact hcontinues

/-- A visit on top takes over what the document says. -/
theorem continues_document (h : visit.around? = none) :
    visit.Continues visit.document.heritage := by
  have hancestors := ancestors_of_around?_eq_none h
  have hlineage : visit.lineage = [visit.route] := by
    rw [Visit.lineage, hancestors]
    rfl
  have hsegments : visit.segments = [] ++ ownSegments visit.route := by
    rw [segments_eq, hancestors]
    simp
  exact continues_of_lineage hlineage hsegments (iff_of_true rfl rfl)

/-- Around the visit of a document is another visit of the document. -/
theorem around?_mem_visits {document : Document} (hvisit : visit ∈ document.visits)
    (h : visit.around? = some parent) : parent ∈ document.visits := by
  obtain ⟨hdocument, hancestors⟩ := ancestors_of_around? h
  obtain ⟨hvisited, position, hstands⟩ := Document.mem_visits_iff.1 hvisit
  rw [hancestors] at hstands
  obtain ⟨outer, index, -, houter, -⟩ := Route.standsAt_parent hstands
  exact Document.mem_visits_iff.2 ⟨hdocument.trans hvisited, outer, houter⟩

end Surroundings

end Visit

namespace Document

/-- Every visit says what its route says, or else what the visit of the route around
it says, or the document on top. -/
theorem visits_inherit {document : Document} {visit : Visit} (h : visit ∈ document.visits) :
    (∀ parent, visit.around? = some parent →
      parent ∈ document.visits ∧ visit.Continues parent.heritage) ∧
    (visit.around? = none → visit.Continues document.heritage) ∧
    (∃ rest, visit.path = "/" ++ rest) ∧
    (visit.path.toList.getLast? = some '/' → visit.path = "/") := by
  refine ⟨?_, ?_, ⟨_, rfl⟩, ?_⟩
  · intro parent hparent
    exact ⟨Visit.around?_mem_visits h hparent, Visit.continues_around hparent⟩
  · intro htop
    rw [← (mem_visits_iff.1 h).1]
    exact Visit.continues_document htop
  · intro hlast
    rw [Visit.path_eq_slash_iff]
    by_contra hsegments
    obtain ⟨c, hc, hslash⟩ := Visit.getLast?_path hsegments
    rw [hlast] at hc
    exact hslash (Option.some.inj hc).symm

/-- Users, below them the active ones under the same path and those of one team. -/
def usersDocument : Document where
  title := none
  description := none
  controller := some "App"
  method := none
  apiType := none
  authType := none
  routes :=
    [⟨{ name := "users", path := some (.segment "/users/"), http := some "GET" },
      [("login", .bool true)],
      [⟨{ name := "active", path := some .shared }, [("login", .null)],
        [⟨{ name := "team", path := some (.segment "team/{id}//") }, [], []⟩]⟩]⟩]
  options := []
  context := {}

theorem visits_inherit_users : ∃ visit ∈ usersDocument.visits, ∃ parent ∈ usersDocument.visits,
    visit.around? = some parent ∧ visit.Continues parent.heritage ∧
    visit.path = "/users/team/{id}" ∧ visit.controller? = some "App" ∧
    visit.http? = some "GET" ∧ visit.option? "login" = some .null := by
  have hlength : 2 < usersDocument.visits.length := by decide
  have hvisit : usersDocument.visits[2] ∈ usersDocument.visits := List.getElem_mem hlength
  obtain ⟨haround, -, -⟩ := visits_inherit hvisit
  obtain ⟨hparent, hcontinues⟩ := haround _ rfl
  exact ⟨_, hvisit, _, hparent, rfl, hcontinues, rfl, rfl, rfl, rfl⟩

end Document

end Routebook
