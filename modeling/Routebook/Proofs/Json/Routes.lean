import Routebook.Proofs.Json.Keys
import Routebook.Proofs.Route.Positions

/-!
# Routes in the JSON form of a document

A document and each of its routes are written as objects, with the objects of the routes
directly below as the items of one member.  A position therefore leads to an object
exactly if it leads to a route, and the object is that of the route.

A document is written so unless a key without a text stands in one of the values that
are kept as they are.
-/

namespace Routebook

open Outcome

/-! ## Reading a JSON form -/

namespace Json

/-- The member of an object with the given name. -/
def member? (json : Json) (name : String) : Option Json :=
  match json with
  | .object members => members.lookup name
  | _ => none

/-- The objects of routes directly inside an object. -/
def routes (json : Json) : List Json :=
  match json.member? "routes" with
  | some (.array items) => items
  | _ => []

/-- The object of a route at a position inside an object. -/
def routeAt? : Json → List Nat → Option Json
  | json, [] => some json
  | json, index :: rest => json.routes[index]?.bind fun inner => routeAt? inner rest

/-- Whether the objects directly inside are those of the given routes. -/
def Holds (json : Json) (routes : List Route) : Prop :=
  List.Forall₂ (fun route object => route.toJson = .ok object) routes json.routes

end Json

/-! ## Members by their names -/

section Members

variable {α : Type} {name other : String} {form : α → Except JsonKeyFault Json}
  {members : List (String × Json)}

theorem lookup_singleton_of_ne (hne : other ≠ name) (json : Json) :
    [(name, json)].lookup other = none := by
  rw [List.lookup_cons, beq_eq_false_iff_ne.2 hne, List.lookup_nil]

theorem lookup_optional_of_ne (hne : other ≠ name) (form : α → Json) (x? : Option α) :
    (Json.optional name form x?).lookup other = none := by
  cases x? with
  | none => rfl
  | some x => exact lookup_singleton_of_ne hne _

theorem lookup_optionalValue_of_ne {x? : Option α}
    (h : Json.optionalValue name form x? = .ok members) (hne : other ≠ name) :
    members.lookup other = none := by
  cases x? with
  | none =>
    cases h
    rfl
  | some x =>
    obtain ⟨json, -, rfl⟩ := map_eq_ok.1 h
    exact lookup_singleton_of_ne hne json

theorem lookup_objectMember_of_ne {entries : List (String × α)}
    (h : objectMember name form entries = .ok members) (hne : other ≠ name) :
    members.lookup other = none := by
  rw [objectMember, bind_eq_ok] at h
  obtain ⟨inner, -, hmembers⟩ := h
  obtain rfl := pure_eq_ok.1 hmembers
  split
  · rfl
  · exact lookup_singleton_of_ne hne _

theorem lookup_arrayMember_of_ne (hne : other ≠ name) (items : List Json) :
    (arrayMember name items).lookup other = none := by
  rw [arrayMember]
  split
  · rfl
  · exact lookup_singleton_of_ne hne _

end Members

theorem RouteDetails.lookup_members {details : RouteDetails} {members : List (String × Json)}
    (h : details.members = .ok members) :
    members.lookup "name" = some (.string details.name) ∧ members.lookup "routes" = none := by
  simp only [RouteDetails.members, bind_eq_ok, pure_eq_ok] at h
  obtain ⟨requestSchema, hrequest, responseSchema, hresponse, pathParams, hpath, queryParams,
    hquery, headerParams, hheader, responseCodes, hcodes, examples, -, tests, -, rfl⟩ := h
  constructor
  · simp
  · simp [List.lookup_append, List.lookup_cons, lookup_optional_of_ne,
      lookup_optionalValue_of_ne hrequest, lookup_optionalValue_of_ne hresponse,
      lookup_objectMember_of_ne hpath, lookup_objectMember_of_ne hquery,
      lookup_objectMember_of_ne hheader, lookup_objectMember_of_ne hcodes,
      lookup_arrayMember_of_ne]

/-! ## Objects of routes -/

namespace Route

theorem forall₂_of_toJsons {routes : List Route} {jsons : List Json}
    (h : toJsons routes = .ok jsons) :
    List.Forall₂ (fun route json => route.toJson = .ok json) routes jsons := by
  induction routes generalizing jsons with
  | nil =>
    cases h
    exact .nil
  | cons route rest ih =>
    simp only [toJsons, bind_eq_ok, pure_eq_ok] at h
    obtain ⟨json, hjson, others, hothers, rfl⟩ := h
    exact .cons hjson (ih hothers)

/-- The object of a route has its name and holds the objects of the routes below. -/
theorem holds_of_toJson {route : Route} {json : Json} (h : route.toJson = .ok json) :
    json.member? "name" = some (.string route.name) ∧ json.Holds route.routes := by
  obtain ⟨details, options, routes⟩ := route
  simp only [toJson, bind_eq_ok, pure_eq_ok] at h
  obtain ⟨members, hmembers, optionMember, hoptions, inner, hinner, rfl⟩ := h
  obtain ⟨hname, hroutes⟩ := RouteDetails.lookup_members hmembers
  have hoption : optionMember.lookup "routes" = none :=
    lookup_objectMember_of_ne hoptions (by decide)
  have hall := forall₂_of_toJsons hinner
  constructor
  · rw [Json.member?, List.append_assoc, List.lookup_append, hname]
    rfl
  · rw [Json.Holds, Json.routes, Json.member?, List.lookup_append, List.lookup_append, hroutes,
      hoption]
    cases inner with
    | nil => exact hall
    | cons first rest => exact hall

end Route

theorem Document.holds_of_toJson {document : Document} {json : Json}
    (h : document.toJson = .ok json) : json.Holds document.routes := by
  simp only [toJson, bind_eq_ok, pure_eq_ok] at h
  obtain ⟨routes, hroutes, options, -, rfl⟩ := h
  have hlookup : ([("routes", Json.array routes), ("options", Json.object options),
      ("version", Json.string version)]).lookup "routes" = some (.array routes) := rfl
  simp (disch := decide) only [Json.Holds, Json.routes, Json.member?, List.lookup_append,
    lookup_optional_of_ne, hlookup, Option.none_or]
  exact Route.forall₂_of_toJsons hroutes

theorem rel_getElem? {α β : Type} {related : α → β → Prop} {items : List α} {others : List β}
    (h : List.Forall₂ related items others) (index : Nat) :
    Option.Rel related items[index]? others[index]? := by
  induction h generalizing index with
  | nil => exact .none
  | cons hhead _ ih =>
    cases index with
    | zero => exact .some hhead
    | succ index => exact ih index

namespace Json.Holds

variable {json : Json} {routes around : List Route} {route : Route} {position : List Nat}

/-- A position leads to an object exactly if it leads to a route. -/
theorem isSome_routeAt? (h : json.Holds routes) (position : List Nat) :
    (json.routeAt? position).isSome ↔ (Route.along? routes position).isSome := by
  induction position generalizing json routes with
  | nil => exact iff_of_true rfl rfl
  | cons index rest ih =>
    have hrel := rel_getElem? h index
    rw [routeAt?, Route.along?]
    generalize json.routes[index]? = object? at hrel ⊢
    generalize routes[index]? = route? at hrel ⊢
    cases hrel with
    | none => exact Iff.rfl
    | some hobject =>
      rw [Option.bind_some, ih (Route.holds_of_toJson hobject).2, Option.isSome_map]

/-- The object at the position of a route is that of the route. -/
theorem routeAt?_of_standsAt (h : json.Holds routes)
    (hstands : Route.StandsAt routes position around route) :
    ∃ object, json.routeAt? position = some object ∧ route.toJson = .ok object := by
  induction position generalizing json routes around with
  | nil => exact absurd hstands Route.not_standsAt_nil
  | cons index rest ih =>
    have hrel := rel_getElem? h index
    rw [routeAt?]
    generalize json.routes[index]? = object? at hrel ⊢
    obtain ⟨-, rfl, hroute⟩ | ⟨outermost, inner, -, houtermost, hinner⟩ :=
      Route.standsAt_cons_cases hstands
    · rw [hroute] at hrel
      cases hrel with
      | some hobject => exact ⟨_, rfl, hobject⟩
    · rw [houtermost] at hrel
      cases hrel with
      | some hobject => exact ih (Route.holds_of_toJson hobject).2 hinner

end Json.Holds

/-! ## The JSON form of a document -/

/-- Whether a JSON form has one object for each visit of a document, at the given
positions. -/
structure Document.ShownIn (document : Document) (json : Json) (positions : List (List Nat)) :
    Prop where
  ascending : positions.Pairwise (· < ·)
  /-- At no other positions are there objects of routes. -/
  mem_iff : ∀ position, position ∈ positions ↔ position ≠ [] ∧ (json.routeAt? position).isSome
  visitsAt : List.Forall₂ document.VisitsAt positions document.visits
  /-- The object at the position of a visit is that of its route. -/
  objects : List.Forall₂ (fun position visit =>
    ∃ object, json.routeAt? position = some object ∧ visit.route.toJson = .ok object ∧
      object.member? "name" = some (.string visit.route.name)) positions document.visits

namespace Document

theorem shownIn_of_toJson {document : Document} {json : Json} (h : document.toJson = .ok json) :
    document.ShownIn json (Route.positionsFrom 0 document.routes) where
  ascending := Route.pairwise_positionsFrom document.routes 0
  mem_iff position := by
    rw [(holds_of_toJson h).isSome_routeAt?, Route.mem_positionsFrom]
    constructor
    · rintro ⟨index, rest, rfl, hway⟩
      rw [Nat.zero_add]
      exact ⟨List.cons_ne_nil _ _, hway⟩
    · rintro ⟨hne, hway⟩
      obtain ⟨index, rest, rfl⟩ := List.exists_cons_of_ne_nil hne
      exact ⟨index, rest, by rw [Nat.zero_add], hway⟩
  visitsAt := visitsAt_visits document
  objects := by
    refine (visitsAt_visits document).imp fun position visit hvisit => ?_
    obtain ⟨object, hat, hobject⟩ := (holds_of_toJson h).routeAt?_of_standsAt hvisit.standsAt
    exact ⟨object, hat, hobject, (Route.holds_of_toJson hobject).1⟩

/-- A document cannot be written if there is a key without a text in one of its values.
Otherwise it can, and its JSON form shows each of its routes in place. -/
theorem toJson_unless_textless (document : Document) :
    ((∃ error, document.toJson.mapError Error.jsonKey = .error error ∧ error.category = .json) ↔
        ∃ value ∈ document.values, value.HasTextlessKey) ∧
      ((∃ json positions, document.toJson = .ok json ∧ document.ShownIn json positions) ↔
        ¬ ∃ value ∈ document.values, value.HasTextlessKey) := by
  have hok : document.toJson.isOk ↔ ¬ ∃ value ∈ document.values, value.HasTextlessKey := by
    rw [isOk_toJson]
    simp only [Json.isOk_ofValue, not_exists, not_and]
  have hfault : (∃ fault, document.toJson = .error fault) ↔
      ∃ value ∈ document.values, value.HasTextlessKey := by
    rw [← not_isOk_iff_exists, hok, not_not]
  constructor
  · rw [← hfault]
    constructor
    · rintro ⟨error, herror, -⟩
      obtain ⟨fault, hfault, -⟩ := mapError_eq_error.1 herror
      exact ⟨fault, hfault⟩
    · rintro ⟨fault, hfault⟩
      exact ⟨.jsonKey fault, mapError_eq_error.2 ⟨fault, hfault, rfl⟩, rfl⟩
  · rw [← hok, isOk_iff_exists]
    constructor
    · rintro ⟨json, -, hjson, -⟩
      exact ⟨json, hjson⟩
    · rintro ⟨json, hjson⟩
      exact ⟨json, _, hjson, shownIn_of_toJson hjson⟩

/-- A key that is null has no text, though it stands under a tag within a sequence. -/
example :
    Except.isOk (toJson ⟨none, none, none, none, none, none, [],
      [("limits", .sequence [.tagged ⟨"shared"⟩ (.mapping [(.null, .bool true)])])], {}⟩) =
        false :=
  rfl

end Document

end Routebook
