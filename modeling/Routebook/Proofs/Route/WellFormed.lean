import Mathlib.Data.List.Induction
import Routebook.Proofs.Route.Levels
import Routebook.Proofs.Route.Positions
import Routebook.Proofs.Yaml.KeyText

/-!
# Routes are well formed

What a document is built from need not be well formed: keys may be of any kind,
fields may contradict the verb that a route stands under, and paths may be null.
This file shows what holds of every route all the same, and at which level.

Fields, markers, verbs and types of interface are looked up as strings, whereas the
name of a route is the text of its key.  No key but a string has one of these
names as its text, so that what is said of keys can be said of names.
-/

namespace Routebook

open Outcome

/-! ## Keys by their names -/

section Keys

variable {level : Level} {key value : Value} {name : String}

theorem onlyString_of_hasField (h : level.kind.hasField name) : OnlyString name := by
  have hall : ∀ level : Level, ∀ field ∈ level.kind.fields, OnlyString field.name := by
    rintro (_ | _) <;> decide
  obtain ⟨field, hfield, hname⟩ := List.any_eq_true.1 h
  obtain rfl : field.name = name := by simpa using hname
  exact hall level field hfield

theorem onlyString_of_mem (h : name ∈ httpVerbs ++ apiTypes) : OnlyString name := by
  have hall : ∀ key ∈ httpVerbs ++ apiTypes, OnlyString key := by decide
  exact hall name h

/-- A key that is neither a field nor a marker does not have the name of a field. -/
theorem hasField_eq_false (hname : key.name? = some name) (hconsumes : level.consumes key = false) :
    level.kind.hasField name = false := by
  by_contra hfield
  rw [Bool.not_eq_false] at hfield
  obtain rfl := eq_string_of_name? hname (onlyString_of_hasField hfield)
  rw [Level.consumes, Level.takes, hfield] at hconsumes
  cases hconsumes

theorem promotionOf?_eq (hname : key.name? = some name) (h : name ∈ httpVerbs ++ apiTypes) :
    Level.route.promotionOf? key = Promotion.ofKey? name := by
  obtain rfl := eq_string_of_name? hname (onlyString_of_mem h)
  rfl

theorem ofKey?_verb (h : name ∈ httpVerbs) : Promotion.ofKey? name = some ⟨name, "http"⟩ := by
  have hall : ∀ key ∈ httpVerbs, Promotion.ofKey? key = some ⟨key, "http"⟩ := by decide
  exact hall name h

theorem ofKey?_apiType (h : name ∈ apiTypes) : Promotion.ofKey? name = some ⟨name, "apiType"⟩ := by
  have hall : ∀ key ∈ apiTypes, Promotion.ofKey? key = some ⟨key, "apiType"⟩ := by decide
  exact hall name h

theorem eq_append_of_optionName? {text : String} (h : optionName? text = some name) :
    text = "." ++ name := by
  rw [optionName?] at h
  split at h
  · rename_i rest htext
    obtain rfl : String.ofList rest = name := Option.some.inj h
    rw [← String.toList_inj, htext, String.toList_append, String.toList_ofList]
    simp
  · cases h

theorem head?_ne_of_optionName? (h : optionName? name = none) : name.toList.head? ≠ some '.' := by
  intro hhead
  obtain ⟨rest, hname⟩ := List.head?_eq_some_iff.1 hhead
  rw [optionName?, hname] at h
  cases h

/-- An entry that stands for a route is none of the others. -/
theorem of_startsRoute (h : level.startsRoute (key, value)) (hname : key.name? = some name) :
    level.consumes key = false ∧ optionName? name = none := by
  rw [Level.startsRoute, hname] at h
  simp only [Bool.and_eq_true, Bool.not_eq_true', Option.any_some, Option.isNone_iff_eq_none] at h
  exact h.1

/-- An option of a route is not written like a marker. -/
theorem marker_ne_of_optionOf? {entry : Value × Value} {option : String × Value}
    (h : Level.route.optionOf? entry = some option) :
    "." ++ option.1 ∉ Level.route.markers := by
  intro hmarker
  have hall : ∀ marker ∈ Level.route.markers, OnlyString marker := by decide
  rw [Level.optionOf?] at h
  split at h
  · cases h
  · rename_i hconsumes
    obtain ⟨name, hname, rfl⟩ := Option.map_eq_some_iff.1 h
    obtain ⟨text, htext, hoption⟩ := Option.bind_eq_some_iff.1 hname
    obtain rfl := eq_append_of_optionName? hoption
    rw [eq_string_of_name? htext (hall _ hmarker)] at hconsumes
    exact hconsumes (by simp [Level.consumes, Level.takes, hmarker])

end Keys

/-! ## Promoted fields -/

section Promotions

variable {name : String} {value : Value} {route : Route} {own : Mapping} {field : String}

/-- A promotion puts its key into its field, whatever stands there. -/
theorem text?_stamp (promotion : Promotion) (kind : EntityKind) (scope : Scope)
    (entries : Mapping) :
    Fields.text? ⟨kind, scope, promotion.stamp entries⟩ promotion.field =
      .ok (some promotion.key) := by
  have hset := Mapping.get?_set_self promotion.field (.string promotion.key) entries
  have hraw := Mapping.get?_setDefault_of_some hset "path" (.bool false)
  rw [Fields.text?, Fields.readWith, Fields.value?, Fields.raw?, Promotion.stamp, hraw]
  rfl

/-- What a route that stands under a promoted key says in the field of the
promotion. -/
theorem text?_promoted_eq (hbuild : buildRoute .root name (some ⟨name, field⟩) value = .ok route)
    (hown : value.asFields? "description" = some own) :
    ∃ fields : Fields, route.details.ReadFrom name fields ∧
      fields.text? field = .ok (some name) :=
  ⟨_, RouteDetails.readFrom_of_read (read_of_buildRoute hbuild hown),
    text?_stamp ⟨name, field⟩ _ _ own⟩

end Promotions

/-! ## Well-formed routes -/

/-- Whether a route is well formed at a level. -/
structure Route.WellFormed (level : Level) (route : Route) : Prop where
  noPath_of_path : route.details.path = none → route.details.noPath = true
  head?_name_ne : route.name.toList.head? ≠ some '.'
  controller_not_mem : "controller" ∉ route.options.map Prod.fst
  method_not_mem : "method" ∉ route.options.map Prod.fst
  http_eq : level = .route → route.name ∈ httpVerbs → route.details.http = some route.name
  apiType_eq : level = .route → route.name ∈ apiTypes → route.details.apiType = some route.name
  hasField_name : level.kind.hasField route.name = false

/-- The level of a route with the given routes around it. -/
def Level.below : List Route → Level
  | [] => .document
  | _ :: _ => .route

section WellFormed

variable {level : Level} {routes : List Route} {route : Route} {entries own : Mapping}

theorem noPath_of_path_eq_none {details : RouteDetails} {name : String} {fields : Fields}
    (h : details.ReadFrom name fields) (hpath : details.path = none) : details.noPath = true := by
  obtain ⟨given, -, heq⟩ := h.path
  rw [hpath] at heq
  split at heq
  · cases heq
  · rename_i hnot
    simpa [← heq] using hnot

theorem not_mem_options_of_mirrors {name : String} (h : route.Mirrors own)
    (hname : "." ++ name ∈ Level.route.markers) : name ∉ route.options.map Prod.fst := by
  obtain ⟨details, options, routes⟩ := route
  rw [Route.Mirrors] at h
  intro hmem
  rw [h.1] at hmem
  have hmem := Assoc.map_fst_ofList_subset _ hmem
  obtain ⟨option, hoption, rfl⟩ := List.mem_map.1 hmem
  obtain ⟨entry, -, hentry⟩ := List.mem_filterMap.1 hoption
  exact marker_ne_of_optionOf? hentry hname

theorem wellFormed_of_allMirror (h : AllMirror level routes (entries.filter level.startsRoute))
    (hroute : route ∈ routes) : route.WellFormed level := by
  obtain ⟨⟨key, value⟩, hentry, hname, hbuild, own, hown, hmirrors⟩ := h.exists_entry hroute
  obtain ⟨hconsumes, hdotted⟩ := of_startsRoute (List.mem_filter.1 hentry).2 hname
  refine ⟨?_, head?_ne_of_optionName? hdotted, ?_, ?_, ?_, ?_,
    hasField_eq_false hname hconsumes⟩
  · exact noPath_of_path_eq_none
      (RouteDetails.readFrom_of_read (read_of_buildRoute (hbuild .root) hown))
  · exact not_mem_options_of_mirrors hmirrors (by decide)
  · exact not_mem_options_of_mirrors hmirrors (by decide)
  · rintro rfl hverb
    have hbuild := hbuild .root
    rw [promotionOf?_eq hname (List.mem_append_left _ hverb), ofKey?_verb hverb] at hbuild
    obtain ⟨fields, hread, hfield⟩ := text?_promoted_eq hbuild hown
    exact Except.ok.inj (hread.http.symm.trans hfield)
  · rintro rfl htype
    have hbuild := hbuild .root
    rw [promotionOf?_eq hname (List.mem_append_right _ htype), ofKey?_apiType htype] at hbuild
    obtain ⟨fields, hread, hfield⟩ := text?_promoted_eq hbuild hown
    exact Except.ok.inj (hread.apiType.symm.trans hfield)

/-- What the routes on top are built from, and so on inwards, is a mapping that the
routes below mirror. -/
theorem exists_allMirror_of_standsAt {top : List Route} {position : List Nat}
    {around : List Route} (h : AllMirror .document top (entries.filter Level.document.startsRoute))
    (hstands : Route.StandsAt top position around route) :
    ∃ (routes : List Route) (own : Mapping), route ∈ routes ∧
      AllMirror (.below around) routes (own.filter (Level.below around).startsRoute) := by
  induction around using List.reverseRecOn generalizing position route with
  | nil =>
    obtain ⟨index, -, hroute⟩ := Route.standsAt_top hstands
    exact ⟨top, entries, List.mem_of_getElem? hroute, h⟩
  | append_singleton outer parent ih =>
    obtain ⟨position, index, -, hparent, hroute⟩ := Route.standsAt_parent hstands
    obtain ⟨routes, outerEntries, hmem, hmirror⟩ := ih hparent
    obtain ⟨entry, -, -, -, own, -, hmirrors⟩ := hmirror.exists_entry hmem
    have hlevel : Level.below (outer ++ [parent]) = .route := by cases outer <;> rfl
    rw [hlevel]
    exact ⟨parent.routes, own, List.mem_of_getElem? hroute, hmirrors.routes⟩

end WellFormed

/-- Every route of a document is well formed at its level. -/
theorem Document.wellFormed_build {entries : Mapping} {context : Context} {document : Document}
    (h : build entries context = .ok document) {position : List Nat} {around : List Route}
    {route : Route} (hstands : Route.StandsAt document.routes position around route) :
    route.WellFormed (.below around) := by
  have htop := (allMirror_of_buildRoutes entries _ _ _ (buildRoutes_of_build h)).1
  obtain ⟨routes, own, hroute, hmirror⟩ := exists_allMirror_of_standsAt htop hstands
  exact wellFormed_of_allMirror hmirror hroute

/-- Users can be got, which says that it posts, and has no path of its own. -/
def contraryRoot : Mapping :=
  [(.string "users", .mapping
    [(.string ".controller", .bool true),
      (.string "GET", .mapping
        [(.string "http", .string "POST"), (.string "path", .null), (.string "json", .null)]),
      (.number (.int 200), .string "Fine")])]

theorem Document.wellFormed_build_contrary :
    ∃ document, build contraryRoot {} = .ok document ∧ ∃ around route,
      Route.StandsAt document.routes [0, 0] around route ∧ route.name = "GET" ∧
      route.WellFormed (.below around) := by
  have hbuild : ∃ document, build contraryRoot {} = .ok document ∧
      ∃ users get, Route.StandsAt document.routes [0, 0] [users] get ∧ get.name = "GET" :=
    ⟨_, rfl, _, _, rfl, rfl⟩
  obtain ⟨document, hdocument, users, get, hstands, hname⟩ := hbuild
  exact ⟨document, hdocument, [users], get, hstands, hname, wellFormed_build hdocument hstands⟩

end Routebook
