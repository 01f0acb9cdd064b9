import Mathlib.Data.List.Forall2
import Mathlib.Data.List.Nodup
import Routebook.Proofs.Route.Levels

/-!
# Parameters and response codes stand for what a route declares

Each entry of a map of entities is built, whatever its key.  The entities are then
kept by their names, and the name is the text of the key: where two keys have one
text, as the number `404` and the string of its digits do, the entity of the later
entry takes the place of the earlier one.

`Collects` says what is kept in general, and that nothing is lost exactly if no two
keys have the same text.  The run at the end loses a response code.
-/

namespace Routebook

open Outcome

namespace Fields

variable {α : Type}

/-- Whether an entity is the one that an entry declares: it has the text of the key
as its name, and is built from the value. -/
def Declares (build : Builder α) (scope : Scope) (entry : Value × Value) (entity : String × α) :
    Prop :=
  entry.1.name? = some entity.1 ∧ build (scope.child entity.1) entry.2 = .ok entity.2

/-- Whether entities are those that the entries of a mapping declare, kept by name. -/
structure Collects (build : Builder α) (scope : Scope) (declared : Mapping)
    (entities : List (String × α)) : Prop where
  /-- Each entry declares an entity.  The names stand where they come first, and the
  last entity of a name is the one that is kept. -/
  exists_declared : ∃ all, List.Forall₂ (Declares build scope) declared all ∧
    entities.map Prod.fst = (all.map Prod.fst).eraseDups ∧
    ∀ name, entities.lookup name = all.reverse.lookup name
  /-- The entities are those of the entries one by one and in order exactly if the
  keys have different texts. -/
  forall₂_iff : List.Forall₂ (Declares build scope) declared entities ↔
    (declared.map fun entry => entry.1.name?).Nodup

variable {build : Builder α} {fields : Fields} {field : String} {declared : Mapping}
  {entities : List (String × α)}

theorem forall₂_declares_of_namedEntities
    (h : fields.namedEntities field build declared = .ok entities) :
    List.Forall₂ (Declares build (fields.scope.child field)) declared entities := by
  induction declared generalizing entities with
  | nil =>
    cases h
    exact .nil
  | cons entry rest ih =>
    obtain ⟨key, value⟩ := entry
    rw [namedEntities] at h
    split at h
    · cases h
    · rename_i text hname
      obtain ⟨entity, hentity, h⟩ := bind_eq_ok.1 h
      obtain ⟨others, hothers, h⟩ := bind_eq_ok.1 h
      cases h
      exact .cons ⟨hname, hentity⟩ (ih hothers)

/-- Entities that stand for entries have the texts of the keys as their names. -/
theorem map_name?_eq {scope : Scope}
    (h : List.Forall₂ (Declares build scope) declared entities) :
    (declared.map fun entry => entry.1.name?) = (entities.map Prod.fst).map some := by
  induction h with
  | nil => rfl
  | cons hhead _ ih => rw [List.map_cons, ih, hhead.1, List.map_cons, List.map_cons]

theorem collects_ofList {scope : Scope} {all : List (String × α)}
    (hall : List.Forall₂ (Declares build scope) declared all) :
    Collects build scope declared (Assoc.ofList all) where
  exists_declared := ⟨all, hall, Assoc.map_fst_ofList all, Assoc.lookup_ofList all⟩
  forall₂_iff := by
    constructor
    · intro h
      rw [map_name?_eq h]
      exact (Assoc.nodup_map_fst_ofList all).map fun _ _ => Option.some.inj
    · intro hnodup
      rw [map_name?_eq hall] at hnodup
      rwa [Assoc.ofList_eq_self (List.Nodup.of_map some hnodup)]

theorem collects_of_entitiesByName (h : fields.entitiesByName field build = .ok entities)
    (hraw : fields.raw? field = some (.mapping declared)) :
    Collects build (fields.scope.child field) declared entities := by
  rw [entitiesByName, hraw] at h
  dsimp only at h
  cases hall : fields.namedEntities field build declared with
  | error fault =>
    rw [hall] at h
    cases h
  | ok all =>
    rw [hall] at h
    cases h
    exact collects_ofList (forall₂_declares_of_namedEntities hall)

end Fields

/-- Whether the parameters and the response codes of a route are those that its
entries declare. -/
structure RouteDetails.CollectsFrom (scope : Scope) (entries : Mapping) (details : RouteDetails) :
    Prop where
  pathParams : ∀ declared, Mapping.get? entries "pathParams" = some (.mapping declared) →
    Fields.Collects Parameter.build (scope.child "pathParams") declared details.pathParams
  queryParams : ∀ declared, Mapping.get? entries "queryParams" = some (.mapping declared) →
    Fields.Collects Parameter.build (scope.child "queryParams") declared details.queryParams
  headerParams : ∀ declared, Mapping.get? entries "headerParams" = some (.mapping declared) →
    Fields.Collects Parameter.build (scope.child "headerParams") declared details.headerParams
  responseCodes : ∀ declared, Mapping.get? entries "responseCodes" = some (.mapping declared) →
    Fields.Collects ResponseCode.build (scope.child "responseCodes") declared
      details.responseCodes

/-- A route has the parameters and the response codes that its mapping declares.
Without a promotion this is about `Route.build`. -/
theorem collectsFrom_of_buildRoute {parent : Scope} {name : String}
    {promotion : Option Promotion} {entries : Mapping} {route : Route}
    (h : buildRoute parent name promotion (.mapping entries) = .ok route) :
    route.details.CollectsFrom (parent.child name) (promoted promotion entries) := by
  have hread := RouteDetails.readFrom_of_read (read_of_buildRoute h rfl)
  constructor
  · exact fun declared => Fields.collects_of_entitiesByName hread.pathParams
  · exact fun declared => Fields.collects_of_entitiesByName hread.queryParams
  · exact fun declared => Fields.collects_of_entitiesByName hread.headerParams
  · exact fun declared => Fields.collects_of_entitiesByName hread.responseCodes

/-- Response codes under a number, under the string of its digits, and under another
number. -/
def repeatedCodes : Mapping :=
  [(.number (.int 404), .string "Missing"), (.number (.int 200), .null),
    (.string "404", .string "Gone")]

/-- Two of the three are left, and the code of the number has the description of the
string. -/
theorem collectsFrom_of_buildRoute_repeated :
    ∃ route, Route.build .root "users" [(.string "responseCodes", .mapping repeatedCodes)] =
        .ok route ∧
      route.details.responseCodes.map Prod.fst = ["404", "200"] ∧
      ¬ List.Forall₂
        (Fields.Declares ResponseCode.build ((Scope.root.child "users").child "responseCodes"))
        repeatedCodes route.details.responseCodes := by
  have hbuild : ∃ route,
      Route.build .root "users" [(.string "responseCodes", .mapping repeatedCodes)] = .ok route ∧
        route.details.responseCodes.map Prod.fst = ["404", "200"] := ⟨_, rfl, rfl⟩
  obtain ⟨route, hroute, hnames⟩ := hbuild
  refine ⟨route, hroute, hnames, ?_⟩
  rw [((collectsFrom_of_buildRoute hroute).responseCodes repeatedCodes rfl).forall₂_iff]
  decide

/-- A response code is lost. -/
theorem length_responseCodes_build_repeated :
    (Route.build .root "users"
        [(.string "responseCodes", .mapping
          [(.number (.int 404), .string "Missing"), (.string "404", .string "Gone")])]).map
      (fun route => route.details.responseCodes.length) = .ok 1 :=
  rfl

end Routebook
