import Routebook.Proofs.Route.Places
import Routebook.Route.Document

/-!
# Routes and options mirror the entries

The routes of a document stand for the entries of its root one by one and in
order, and so do the routes below each route for the entries of the mapping it is
built from.  `Level.startsRoute` says which entries these are, and
`Level.optionOf?` which ones are options; both go by the key and the value of the
entry alone.

Nothing else makes a route, so that the number of routes is the number of such
entries on all levels.
-/

namespace Routebook

open Outcome

namespace Level

/-- Whether a key is one of the fields or markers of a level. -/
def consumes (level : Level) : Value → Bool
  | .string name => level.takes name
  | _ => false

/-- Whether a key stands for a route even if its value is null. -/
def promotes (level : Level) : Value → Bool
  | .string name => level == .route && (httpVerbs ++ apiTypes).contains name
  | _ => false

/-- The promotion of an arbitrary key. -/
def promotionOf? (level : Level) : Value → Option Promotion
  | .string name => level.promotion? name
  | _ => none

/-- The option that an entry sets, if it sets one: the name without its dot. -/
def optionOf? (level : Level) (entry : Value × Value) : Option (String × Value) :=
  if level.consumes entry.1 then none
  else (entry.1.name?.bind optionName?).map fun name => (name, entry.2)

/-- Whether an entry stands for a route. -/
def startsRoute (level : Level) (entry : Value × Value) : Bool :=
  !level.consumes entry.1 && entry.1.name?.any (fun text => (optionName? text).isNone) &&
    (!entry.2.isNull || level.promotes entry.1)

/-! ## The role of an entry -/

section Roles

variable {level : Level} {key value : Value} {name : String} {promotion : Promotion}

/-- What an entry means depends on its value only as far as that is null or not. -/
theorem role_eq_of_isNull_eq {other : Value} (h : value.isNull = other.isNull) (level : Level)
    (key : Value) : level.role key value = level.role key other := by
  cases key <;> simp only [role, roleOfText, h]

theorem mem_of_promotion? (h : level.promotion? name = some promotion) :
    level = .route ∧ name ∈ httpVerbs ++ apiTypes := by
  cases level with
  | document => cases h
  | route =>
    obtain rfl : promotion.key = name := by simpa using List.find?_some h
    have hmem := List.mem_of_find?_eq_some h
    have hkeys : ∀ promotion ∈ promotions, promotion.key ∈ httpVerbs ++ apiTypes := by decide
    exact ⟨rfl, hkeys promotion hmem⟩

theorem promotion?_eq_none (h : level.promotion? name = none) :
    level.promotes (.string name) = false := by
  cases level with
  | document => rfl
  | route =>
    have hkeys : promotions.map Promotion.key = httpVerbs ++ apiTypes := by decide
    rw [promotes, ← hkeys]
    simpa [promotion?, Promotion.ofKey?] using h

/-- No promoted key reads as an option. -/
theorem optionName?_of_promotion? (h : level.promotion? name = some promotion) :
    optionName? name = none := by
  have hkeys : ∀ key ∈ httpVerbs ++ apiTypes, optionName? key = none := by decide
  exact hkeys name (mem_of_promotion? h).2

theorem role_of_consumes (h : level.consumes key) (value : Value) :
    level.role key value = .field := by
  cases key with
  | string name => simpa [role] using fun hnot => absurd h (by simp [consumes, hnot])
  | _ => cases h

theorem role_of_promotes (h : level.consumes key = false)
    (hpromotion : level.promotionOf? key = some promotion) (value : Value) :
    ∃ name, key = .string name ∧ level.role key value = .child name (some promotion) := by
  cases key with
  | string name =>
    have htakes : level.takes name = false := h
    have hname : level.promotion? name = some promotion := hpromotion
    exact ⟨name, rfl, by simp [role, htakes, hname]⟩
  | _ => cases hpromotion

theorem role_of_ordinary (h : level.consumes key = false)
    (hpromotion : level.promotionOf? key = none) (value : Value) :
    level.role key value = roleOfText key.name? value := by
  cases key with
  | string name =>
    have htakes : level.takes name = false := h
    have hname : level.promotion? name = none := hpromotion
    simp [role, htakes, hname, Value.name?, Value.text?]
  | _ => rfl

theorem promotes_eq_false (h : level.promotionOf? key = none) : level.promotes key = false := by
  cases key with
  | string name => exact promotion?_eq_none h
  | _ => rfl

/-- An entry is an option exactly if its role is one. -/
theorem optionOf?_eq (level : Level) (key value : Value) :
    level.optionOf? (key, value) =
      match level.role key value with
      | .option name => some (name, value)
      | _ => none := by
  cases hconsumes : level.consumes key with
  | true => simp [role_of_consumes hconsumes, optionOf?, hconsumes]
  | false =>
    cases hpromotion : level.promotionOf? key with
    | some promotion =>
      obtain ⟨name, rfl, hrole⟩ := role_of_promotes hconsumes hpromotion value
      have hname := optionName?_of_promotion? hpromotion
      simp [hrole, optionOf?, Value.name?, Value.text?, hname]
    | none =>
      rw [role_of_ordinary hconsumes hpromotion value, optionOf?, roleOfText.eq_def]
      cases key.name? with
      | none => simp
      | some text =>
        cases hname : optionName? text with
        | some name => simp [hconsumes, hname]
        | none => by_cases hnull : value.isNull <;> simp [hname, hnull]

/-- An entry stands for a route exactly if its role is one. -/
theorem startsRoute_eq (level : Level) (key value : Value) :
    level.startsRoute (key, value) =
      match level.role key value with
      | .child _ _ => true
      | _ => false := by
  cases hconsumes : level.consumes key with
  | true => simp [role_of_consumes hconsumes, startsRoute, hconsumes]
  | false =>
    cases hpromotion : level.promotionOf? key with
    | some promotion =>
      obtain ⟨name, rfl, hrole⟩ := role_of_promotes hconsumes hpromotion value
      have hname := optionName?_of_promotion? hpromotion
      obtain ⟨rfl, hmem⟩ := mem_of_promotion? hpromotion
      have hpromotes : Level.route.promotes (.string name) = true := by
        simpa [promotes] using hmem
      simp [hrole, startsRoute, hconsumes, Value.name?, Value.text?, hname, hpromotes]
    | none =>
      have hpromotes := promotes_eq_false hpromotion
      rw [role_of_ordinary hconsumes hpromotion value, startsRoute, roleOfText.eq_def]
      cases key.name? with
      | none => simp
      | some text =>
        cases hname : optionName? text with
        | some name => simp [hname]
        | none => by_cases hnull : value.isNull <;> simp [hconsumes, hname, hnull, hpromotes]

/-- The name and the promotion of a route come from its key. -/
theorem of_role_child {promotion : Option Promotion}
    (h : level.role key value = .child name promotion) :
    key.name? = some name ∧ promotion = level.promotionOf? key ∧ level.consumes key = false := by
  cases hconsumes : level.consumes key with
  | true =>
    rw [role_of_consumes hconsumes] at h
    cases h
  | false =>
    cases hpromotion : level.promotionOf? key with
    | some promoted =>
      obtain ⟨text, rfl, hrole⟩ := role_of_promotes hconsumes hpromotion value
      rw [hrole] at h
      cases h
      exact ⟨rfl, rfl, rfl⟩
    | none =>
      rw [role_of_ordinary hconsumes hpromotion value, roleOfText.eq_def] at h
      split at h
      · cases h
      · rename_i text hname
        split at h
        · cases h
        · split at h
          · cases h
          · cases h
            exact ⟨hname, rfl, rfl⟩

end Roles

theorem options_eq (level : Level) (entries : Mapping) :
    level.options entries = Assoc.ofList (entries.filterMap level.optionOf?) := by
  rw [options]
  congr 2
  funext entry
  exact (optionOf?_eq level entry.1 entry.2).symm

end Level

/-! ## Mirrors -/

mutual

/-- Whether the options and the routes of a route stand for the entries of a
mapping, on all levels. -/
def Route.Mirrors : Route → Mapping → Prop
  | ⟨_, options, routes⟩, entries =>
    options = Assoc.ofList (entries.filterMap Level.route.optionOf?) ∧
      AllMirror .route routes (entries.filter Level.route.startsRoute)

/-- Whether routes stand for the given entries one by one: each has the text of
the key as its name, is what is built from the value wherever it stands, and
mirrors the mapping that the value stands for. -/
def AllMirror (level : Level) : List Route → Mapping → Prop
  | [], [] => True
  | route :: routes, (key, value) :: entries =>
    key.name? = some route.name ∧
      (∀ parent, buildRoute parent route.name (level.promotionOf? key) value = .ok route) ∧
      (∃ own, value.asFields? "description" = some own ∧ route.Mirrors own) ∧
      AllMirror level routes entries
  | _, _ => False

end

theorem Route.Mirrors.routes {route : Route} {entries : Mapping} (h : route.Mirrors entries) :
    AllMirror .route route.routes (entries.filter Level.route.startsRoute) := by
  obtain ⟨details, options, routes⟩ := route
  rw [Mirrors] at h
  exact h.2

/-- Each of the routes stands for one of the entries. -/
theorem AllMirror.exists_entry {level : Level} {routes : List Route} {entries : Mapping}
    {route : Route} (h : AllMirror level routes entries) (hroute : route ∈ routes) :
    ∃ entry ∈ entries, entry.1.name? = some route.name ∧
      (∀ parent, buildRoute parent route.name (level.promotionOf? entry.1) entry.2 = .ok route) ∧
      ∃ own, entry.2.asFields? "description" = some own ∧ route.Mirrors own := by
  induction routes generalizing entries with
  | nil => cases hroute
  | cons first rest ih =>
    cases entries with
    | nil => exact h.elim
    | cons entry others =>
      obtain ⟨key, value⟩ := entry
      rw [AllMirror] at h
      obtain ⟨hname, hbuild, hown, hrest⟩ := h
      rcases List.mem_cons.1 hroute with rfl | hroute
      · exact ⟨(key, value), List.mem_cons_self, hname, hbuild, hown⟩
      · obtain ⟨entry, hentry, hstands⟩ := ih hrest hroute
        exact ⟨entry, List.mem_cons_of_mem _ hentry, hstands⟩

mutual

/-- The number of entries that stand for routes below a value. -/
def Value.routesBelow : Value → Nat
  | .mapping entries => routesAmong .route entries
  | _ => 0

/-- The number of entries that stand for routes among the given ones and below
them. -/
def routesAmong (level : Level) : Mapping → Nat
  | [] => 0
  | (key, value) :: rest =>
    (if level.startsRoute (key, value) then 1 + value.routesBelow else 0) + routesAmong level rest

end

/-- Whether a document stands for the entries of its root. -/
structure Document.Mirrors (document : Document) (entries : Mapping) : Prop where
  options : document.options = Assoc.ofList (entries.filterMap Level.document.optionOf?)
  routes : AllMirror .document document.routes (entries.filter Level.document.startsRoute)

/-! ## What is built mirrors what it is built from -/

/-- What the details of a route are read from. -/
structure RouteDetails.ReadFrom (name : String) (fields : Fields) (details : RouteDetails) :
    Prop where
  name_eq : details.name = name
  apiType : fields.text? "apiType" = .ok details.apiType
  http : fields.text? "http" = .ok details.http
  pathParams : fields.entitiesByName "pathParams" Parameter.build = .ok details.pathParams
  queryParams : fields.entitiesByName "queryParams" Parameter.build = .ok details.queryParams
  headerParams : fields.entitiesByName "headerParams" Parameter.build = .ok details.headerParams
  responseCodes :
    fields.entitiesByName "responseCodes" ResponseCode.build = .ok details.responseCodes
  /-- The name is the path if no other path is given, unless there is to be none. -/
  path : ∃ own, readPath fields name = .ok own ∧
    details.path = if own.isNone && !details.noPath then some (.segment name) else own

theorem RouteDetails.readFrom_of_read {name : String} {fields : Fields} {details : RouteDetails}
    (h : read name fields = .ok details) : details.ReadFrom name fields := by
  simp only [read, bind_eq_ok, pure_eq_ok] at h
  obtain ⟨title, -, description, -, controller, -, method, -, apiType, hapiType, authType, -,
    http, hhttp, pathParams, hpathParams, queryParams, hqueryParams, headerParams, hheaderParams,
    codes, hcodes, examples, -, tests, -, isVirtual, -, noPath, -, defaultRoute, -, redirect, -,
    redirectCode, -, path, hpath, rfl⟩ := h
  exact ⟨rfl, hapiType, hhttp, hpathParams, hqueryParams, hheaderParams, hcodes, path, hpath, rfl⟩

theorem RouteDetails.flags_of_read {name : String} {fields : Fields} {details : RouteDetails}
    (h : read name fields = .ok details) :
    fields.flag "virtual" = .ok details.isVirtual ∧ fields.flag "noPath" = .ok details.noPath := by
  simp only [read, bind_eq_ok, pure_eq_ok] at h
  obtain ⟨_, -, _, -, _, -, _, -, _, -, _, -, _, -, _, -, _, -, _, -, _, -, _, -, _, -, isVirtual,
    hvirtual, noPath, hnoPath, _, -, _, -, _, -, _, -, rfl⟩ := h
  exact ⟨hvirtual, hnoPath⟩

/-- The details of a route are read from the entries that its value stands for and
those that its promotion adds. -/
theorem read_of_buildRoute {parent : Scope} {name : String} {promotion : Option Promotion}
    {value : Value} {own : Mapping} {route : Route}
    (h : buildRoute parent name promotion value = .ok route)
    (hown : value.asFields? "description" = some own) :
    RouteDetails.read name ⟨.route, parent.child name, promoted promotion own⟩ =
      .ok route.details := by
  rw [buildRoute.eq_def] at h
  split at h
  · cases hown
    simp only [bind_eq_ok] at h
    obtain ⟨details, hdetails, _, -, routes, -, h⟩ := h
    cases h
    exact hdetails
  · rw [Fields.ofValue, hown] at h
    simp only [bind_eq_ok] at h
    obtain ⟨fields, hfields, details, hdetails, h⟩ := h
    cases hfields
    cases h
    exact hdetails

/-- A value that is no mapping stands for a route without options and routes. -/
theorem filterMap_optionOf?_of_ne_mapping {value : Value} {own : Mapping}
    (hvalue : ∀ entries, value ≠ .mapping entries) (h : value.asFields? "description" = some own) :
    own.filterMap Level.route.optionOf? = [] ∧ own.filter Level.route.startsRoute = [] := by
  cases value with
  | mapping entries => exact absurd rfl (hvalue entries)
  | sequence _ | tagged _ _ => cases h
  | null | bool _ | number _ | string _ =>
    cases h
    exact ⟨rfl, rfl⟩

/-- A route that is built from no mapping. -/
theorem of_buildRoute_of_ne_mapping {parent : Scope} {name : String}
    {promotion : Option Promotion} {value : Value} {route : Route}
    (hvalue : ∀ entries, value ≠ .mapping entries)
    (h : buildRoute parent name promotion value = .ok route) :
    ∃ own, value.asFields? "description" = some own ∧ route.name = name ∧
      route.options = [] ∧ route.routes = [] := by
  rw [buildRoute.eq_def] at h
  split at h
  · rename_i entries
    exact absurd rfl (hvalue entries)
  · obtain ⟨fields, hfields, h⟩ := bind_eq_ok.1 h
    obtain ⟨details, hdetails, h⟩ := bind_eq_ok.1 h
    cases h
    rw [Fields.ofValue] at hfields
    split at hfields
    · rename_i own hown
      exact ⟨own, hown, (RouteDetails.readFrom_of_read hdetails).name_eq, rfl, rfl⟩
    · cases hfields

mutual

theorem mirrors_of_buildRoute : ∀ (value : Value) (parent : Scope) (name : String)
    (promotion : Option Promotion) (route : Route),
    buildRoute parent name promotion value = .ok route →
      route.name = name ∧ (∃ own, value.asFields? "description" = some own ∧ route.Mirrors own) ∧
        route.count = 1 + value.routesBelow
  | .mapping entries, parent, name, promotion, route => by
    intro h
    rw [buildRoute] at h
    obtain ⟨details, hdetails, h⟩ := bind_eq_ok.1 h
    obtain ⟨_, -, h⟩ := bind_eq_ok.1 h
    obtain ⟨routes, hroutes, h⟩ := bind_eq_ok.1 h
    cases h
    obtain ⟨hmirror, hcount⟩ := allMirror_of_buildRoutes entries .route _ routes hroutes
    refine ⟨(RouteDetails.readFrom_of_read hdetails).name_eq, ⟨entries, rfl, ?_⟩, ?_⟩
    · rw [Route.Mirrors]
      exact ⟨Level.options_eq .route entries, hmirror⟩
    · rw [Route.count, Value.routesBelow, hcount]
  | .null, parent, name, promotion, route | .bool _, parent, name, promotion, route
  | .number _, parent, name, promotion, route | .string _, parent, name, promotion, route
  | .sequence _, parent, name, promotion, route | .tagged _ _, parent, name, promotion, route => by
    intro h
    obtain ⟨own, hown, hname, hoptions, hroutes⟩ :=
      of_buildRoute_of_ne_mapping (fun _ => by rintro ⟨⟩) h
    obtain ⟨hnone, hempty⟩ := filterMap_optionOf?_of_ne_mapping (fun _ => by rintro ⟨⟩) hown
    obtain ⟨details, options, routes⟩ := route
    obtain rfl : options = [] := hoptions
    obtain rfl : routes = [] := hroutes
    refine ⟨hname, ⟨own, hown, ?_⟩, rfl⟩
    rw [Route.Mirrors, hnone, hempty]
    exact ⟨rfl, trivial⟩

theorem allMirror_of_buildRoutes : ∀ (entries : Mapping) (level : Level) (scope : Scope)
    (routes : List Route), buildRoutes level scope entries = .ok routes →
      AllMirror level routes (entries.filter level.startsRoute) ∧
        Route.countAll routes = routesAmong level entries
  | [], level, scope, routes => by
    intro h
    rw [buildRoutes] at h
    cases h
    exact ⟨trivial, rfl⟩
  | (key, value) :: rest, level, scope, routes => by
    intro h
    have hstarts := level.startsRoute_eq key value
    rw [buildRoutes] at h
    cases hrole : level.role key value with
    | child name promotion =>
      rw [hrole] at h hstarts
      obtain ⟨route, hroute, h⟩ := bind_eq_ok.1 h
      obtain ⟨others, hothers, h⟩ := bind_eq_ok.1 h
      cases h
      obtain ⟨hname, rfl, -⟩ := Level.of_role_child hrole
      obtain ⟨rfl, hown, hcount⟩ := mirrors_of_buildRoute value _ _ _ route hroute
      obtain ⟨hmirror, hcounts⟩ := allMirror_of_buildRoutes rest level _ others hothers
      constructor
      · rw [List.filter_cons_of_pos hstarts, AllMirror]
        refine ⟨hname, fun other => ?_, hown, hmirror⟩
        exact (sameResult_buildRoute value _ _ _ _ route).1 hroute
      · rw [Route.countAll, routesAmong, if_pos hstarts, hcount, hcounts]
    | nameless =>
      rw [hrole] at h
      cases h
    | field | option _ | empty =>
      rw [hrole] at h hstarts
      obtain ⟨hmirror, hcounts⟩ := allMirror_of_buildRoutes rest level _ routes h
      constructor
      · rwa [List.filter_cons_of_neg (by simp [hstarts])]
      · rw [routesAmong, hcounts, hstarts]
        simp

end

/-- The routes on top are what is built from the entries of the root. -/
theorem Document.buildRoutes_of_build {entries : Mapping} {context : Context} {document : Document}
    (h : build entries context = .ok document) :
    buildRoutes .document .root entries = .ok document.routes := by
  simp only [build, bind_eq_ok, pure_eq_ok] at h
  obtain ⟨_, -, _, -, _, -, _, -, _, -, _, -, routes, hroutes, rfl⟩ := h
  exact hroutes

/-- A document stands for the entries of its root on all levels, and has as many
routes as there are entries that stand for routes. -/
theorem Document.mirrors_build {entries : Mapping} {context : Context} {document : Document}
    (h : build entries context = .ok document) :
    document.Mirrors entries ∧ document.routeCount = routesAmong .document entries := by
  simp only [build, bind_eq_ok, pure_eq_ok] at h
  obtain ⟨title, -, description, -, controller, -, method, -, apiType, -, authType, -,
    routes, hroutes, rfl⟩ := h
  obtain ⟨hmirror, hcount⟩ := allMirror_of_buildRoutes entries .document _ routes hroutes
  exact ⟨⟨Level.options_eq .document entries, hmirror⟩, hcount⟩

/-- A document with a promoted key without a value, a null entry, an option and
fields on two levels. -/
def ordersRoot : Mapping :=
  [(.string "title", .string "Orders"), (.string ".team", .null), (.string "draft", .null),
    (.string "orders", .mapping [(.string "path", .string "shop"), (.string "GET", .null),
      (.string Keyword.controllerMarker, .bool true), (.string "draft", .null),
      (.string "item", .mapping [(.string "POST", .string "Order it")])])]

/-- Of these entries four stand for routes. -/
theorem Document.mirrors_build_orders :
    ∃ document, build ordersRoot {} = .ok document ∧ document.Mirrors ordersRoot ∧
      document.routeCount = 4 ∧ document.options = [("team", .null)] := by
  have hbuild : ∃ document, build ordersRoot {} = .ok document := by
    refine ⟨_, rfl⟩
  obtain ⟨document, hdocument⟩ := hbuild
  obtain ⟨hmirrors, hcount⟩ := mirrors_build hdocument
  refine ⟨document, hdocument, hmirrors, ?_, ?_⟩
  · rw [hcount]
    decide
  · rw [hmirrors.options]
    rfl

end Routebook
