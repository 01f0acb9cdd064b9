import Mathlib.Data.List.Nodup
import Routebook.Proofs.Entity.Alike
import Routebook.Proofs.Route.Levels

/-!
# Mappings that are alike at a level

A route or a document is built from its fields and from the entries that are none.
Two mappings are alike at a level if their fields are and if the other entries come
to the same routes and options.  This is so if the other entries are the same, and
also if they differ in what stands under the key of one route, as long as the same
route is built from it.

A promotion adds two fields to those of a route.  One of them is added only if it
is absent, and there null is not as good as absent.
-/

namespace Routebook

open Outcome

/-! ## Entries that are not fields -/

namespace EntityKind

/-- Whether a key is a field of the kind. -/
def owns (kind : EntityKind) : Value → Bool
  | .string name => kind.hasField name
  | _ => false

/-- The entries that are not fields of the kind. -/
def rest (kind : EntityKind) (entries : Mapping) : Mapping :=
  entries.filter fun entry => !kind.owns entry.1

variable {kind : EntityKind} {name : String}

theorem hasField_of_mem {field : Field} (h : field ∈ kind.fields) : kind.hasField field.name :=
  List.any_eq_true.2 ⟨field, h, by simp⟩

theorem isName_eq_false_of_owns {key : Value} (hkey : kind.owns key = true)
    (hname : kind.hasField name = false) : key.isName name = false := by
  refine Mapping.isName_eq_false ?_
  rintro rfl
  rw [owns, hname] at hkey
  cases hkey

theorem get?_rest (hname : kind.hasField name = false) (entries : Mapping) :
    Mapping.get? (kind.rest entries) name = Mapping.get? entries name := by
  rw [Mapping.get?, Mapping.get?, rest, List.find?_filter]
  congr 2
  funext entry
  cases howns : kind.owns entry.1 with
  | false => simp
  | true => simp [isName_eq_false_of_owns howns hname]

theorem has_rest (hname : kind.hasField name = false) (entries : Mapping) :
    Mapping.has (kind.rest entries) name = Mapping.has entries name := by
  rw [← Mapping.isSome_get?, get?_rest hname, Mapping.isSome_get?]

theorem rest_erase (hname : kind.hasField name) (entries : Mapping) :
    kind.rest (Mapping.erase entries name) = kind.rest entries := by
  rw [rest, rest, Mapping.erase, List.filter_filter]
  refine List.filter_congr fun entry _ => ?_
  cases hkey : entry.1.isName name with
  | false => simp
  | true => simp [Mapping.eq_string_of_isName hkey, owns, hname]

theorem rest_set (hname : kind.hasField name) (value : Value) (entries : Mapping) :
    kind.rest (Mapping.set name value entries) = kind.rest entries := by
  have howns : kind.owns (.string name) = true := hname
  rw [rest, rest, Mapping.set]
  induction entries with
  | nil => simp [Mapping.insert, howns]
  | cons head tail ih =>
    obtain ⟨key, old⟩ := head
    rw [Mapping.insert, Mapping.string_same]
    cases hkey : key.isName name with
    | true => simp [Mapping.eq_string_of_isName hkey, howns]
    | false => simp [List.filter_cons, ih]

end EntityKind

namespace Level

variable {level : Level} {key value : Value} {entries entries' : Mapping}

theorem role_of_owns (h : level.kind.owns key) (value : Value) : level.role key value = .field := by
  refine role_of_consumes ?_ value
  cases key with
  | string name => simp [consumes, takes, show level.kind.hasField name from h]
  | _ => cases h

theorem options_rest (level : Level) (entries : Mapping) :
    level.options (level.kind.rest entries) = level.options entries := by
  rw [options, options, EntityKind.rest, List.filterMap_filter]
  congr 2
  funext entry
  cases howns : level.kind.owns entry.1 with
  | false => simp
  | true => simp [role_of_owns howns]

theorem buildRoutes_rest (level : Level) (scope : Scope) (entries : Mapping) :
    buildRoutes level scope (level.kind.rest entries) = buildRoutes level scope entries := by
  induction entries with
  | nil => rfl
  | cons head tail ih =>
    obtain ⟨key, value⟩ := head
    rw [EntityKind.rest] at ih
    cases howns : level.kind.owns key with
    | true =>
      rw [EntityKind.rest, List.filter_cons_of_neg (by simpa using howns), ih, buildRoutes,
        role_of_owns howns]
    | false =>
      rw [EntityKind.rest, List.filter_cons_of_pos (by simpa using howns), buildRoutes, buildRoutes,
        ih]

theorem buildRoutes_append_congr {scope : Scope}
    (h : buildRoutes level scope entries = buildRoutes level scope entries') (before : Mapping) :
    buildRoutes level scope (before ++ entries) = buildRoutes level scope (before ++ entries') := by
  induction before with
  | nil => exact h
  | cons head tail ih =>
    obtain ⟨key, value⟩ := head
    rw [List.cons_append, List.cons_append, buildRoutes, buildRoutes, ih]

end Level

/-- The check goes by whether the promoted keys stand for mappings or scalars. -/
theorem checkPromotions_congr {entries entries' : Mapping} {promotions : List Promotion}
    (h : ∀ promotion ∈ promotions,
      Mapping.get? entries promotion.key = Mapping.get? entries' promotion.key ∨
        ∃ own own', Mapping.get? entries promotion.key = some (.mapping own) ∧
          Mapping.get? entries' promotion.key = some (.mapping own')) (scope : Scope) :
    checkPromotions scope entries promotions = checkPromotions scope entries' promotions := by
  induction promotions with
  | nil => rfl
  | cons promotion rest ih =>
    have hrest := ih fun other hother => h other (List.mem_cons_of_mem _ hother)
    rw [checkPromotions, checkPromotions, hrest]
    rcases h promotion List.mem_cons_self with heq | ⟨own, own', hown, hown'⟩
    · rw [heq]
    · rw [hown, hown']
      rfl

/-! ## Levels -/

namespace Level

/-- Whether two mappings are alike at a level. -/
structure Alike (level : Level) (entries entries' : Mapping) : Prop where
  fields : level.kind.Alike entries entries'
  markers : ∀ marker ∈ level.markers, Mapping.has entries marker = Mapping.has entries' marker
  options : level.options entries = level.options entries'
  checks : ∀ scope,
    checkPromotions scope entries promotions = checkPromotions scope entries' promotions
  routes : ∀ scope, buildRoutes level scope entries = buildRoutes level scope entries'

variable {level : Level} {entries entries' : Mapping}

/-- Where the other entries are the same, only the fields can differ. -/
theorem Alike.of_rest (h : level.kind.Alike entries entries')
    (hrest : level.kind.rest entries = level.kind.rest entries') :
    level.Alike entries entries' where
  fields := h
  markers marker hmarker := by
    have hall : ∀ level : Level, ∀ marker ∈ level.markers, level.kind.hasField marker = false := by
      rintro (_ | _) <;> decide
    have hnone := hall level marker hmarker
    rw [← EntityKind.has_rest hnone, hrest, EntityKind.has_rest hnone]
  options := by rw [← options_rest, hrest, options_rest]
  checks scope := by
    have hall : ∀ level : Level, ∀ promotion ∈ promotions,
        level.kind.hasField promotion.key = false := by
      rintro (_ | _) <;> decide
    refine checkPromotions_congr (fun promotion hpromotion => .inl ?_) scope
    have hnone := hall level promotion hpromotion
    rw [← EntityKind.get?_rest hnone, hrest, EntityKind.get?_rest hnone]
  routes scope := by rw [← buildRoutes_rest, hrest, buildRoutes_rest]

section Child

variable {key : Value} {name : String} {promotion : Option Promotion} {own own' : Mapping}

/-- The key of a route is not one of the fields. -/
theorem isName_field_of_role {field : String} {value : Value}
    (hrole : level.role key value = .child name promotion) (hfield : level.kind.hasField field) :
    key.isName field = false := by
  refine Mapping.isName_eq_false ?_
  rintro rfl
  have howns : level.kind.owns (.string field) = true := hfield
  rw [role_of_owns howns] at hrole
  cases hrole

/-- Under the key of a route, mappings from which the same route is built are as good
as each other. -/
theorem Alike.of_child (hrole : level.role key (.mapping own) = .child name promotion)
    (hbuild : EntityKind.route.BuildsAlike promotion own own') (before after : Mapping) :
    level.Alike (before ++ (key, .mapping own) :: after)
      (before ++ (key, .mapping own') :: after) := by
  have hrole' : level.role key (.mapping own') = .child name promotion :=
    (role_eq_of_isNull_eq rfl level key).trans hrole
  constructor
  case fields =>
    intro field hfield
    have hkey := isName_field_of_role hrole (EntityKind.hasField_of_mem hfield)
    rw [Mapping.get?_append_cons_of_ne hkey before _ (.mapping own')]
    exact .refl _
  case markers => simp [Mapping.has]
  case options =>
    simp only [Level.options, List.filterMap_append, List.filterMap_cons, hrole, hrole']
  case checks =>
    intro scope
    refine checkPromotions_congr (fun promoted _ => ?_) scope
    rw [Mapping.get?_append_cons, Mapping.get?_append_cons]
    cases Mapping.get? before promoted.key with
    | some value => exact .inl rfl
    | none =>
      cases key.isName promoted.key with
      | false => exact .inl rfl
      | true => exact .inr ⟨own, own', rfl, rfl⟩
  case routes =>
    intro scope
    apply buildRoutes_append_congr
    simp only [buildRoutes, hrole, hrole', hbuild scope name]

end Child

end Level

/-! ## Promotions -/

section Promotions

variable {entries entries' : Mapping} {promotion : Option Promotion}

theorem get?_stamp (promotion : Promotion) (entries : Mapping) (name : String) :
    Mapping.get? (promotion.stamp entries) name =
      if name = promotion.field then some (.string promotion.key)
      else if name = "path" then some ((Mapping.get? entries "path").getD (.bool false))
      else Mapping.get? entries name := by
  rw [Promotion.stamp]
  by_cases hfield : name = promotion.field
  · rw [if_pos hfield, hfield]
    exact Mapping.get?_setDefault_of_some (Mapping.get?_set_self _ _ _) _ _
  · rw [if_neg hfield]
    by_cases hpath : name = "path"
    · subst hpath
      rw [if_pos rfl]
      have hset := Mapping.get?_set_of_ne (Ne.symm hfield) (.string promotion.key) entries
      cases hget : Mapping.get? entries "path" with
      | some value =>
        rw [hget] at hset
        exact Mapping.get?_setDefault_of_some hset _ _
      | none =>
        rw [hget] at hset
        exact Mapping.get?_setDefault_self (Mapping.get?_eq_none_iff.1 hset) _
    · rw [if_neg hpath, Mapping.get?_setDefault_of_ne (Ne.symm hpath),
        Mapping.get?_set_of_ne (Ne.symm hfield)]

/-- A promotion keeps fields alike, unless one path is null and the other absent. -/
theorem EntityKind.Alike.promoted {kind : EntityKind} (h : kind.Alike entries entries')
    (hpath : promotion.isSome → Mapping.get? entries "path" = Mapping.get? entries' "path") :
    kind.Alike (promoted promotion entries) (promoted promotion entries') := by
  cases promotion with
  | none => exact h
  | some promotion =>
    intro field hfield
    rw [Routebook.promoted, Routebook.promoted, get?_stamp, get?_stamp, hpath rfl]
    split
    · exact .refl _
    · split
      · exact .refl _
      · exact h field hfield

theorem has_promoted_congr {name : String}
    (h : Mapping.has entries name = Mapping.has entries' name) (promotion : Option Promotion) :
    Mapping.has (promoted promotion entries) name =
      Mapping.has (promoted promotion entries') name := by
  cases promotion with
  | none => exact h
  | some promotion =>
    rw [promoted, promoted, ← Mapping.isSome_get?, ← Mapping.isSome_get?, get?_stamp, get?_stamp]
    split
    · rfl
    · split
      · rfl
      · rw [Mapping.isSome_get?, Mapping.isSome_get?, h]

end Promotions

/-! ## Routes and documents -/

section Entities

variable {entries entries' : Mapping} {promotion : Option Promotion}

theorem RouteDetails.read_congr (h : EntityKind.route.Alike entries entries')
    (hmarkers : ∀ marker ∈ Level.route.markers,
      Mapping.has entries marker = Mapping.has entries' marker) (scope : Scope) (name : String) :
    read name ⟨.route, scope, entries⟩ = read name ⟨.route, scope, entries'⟩ := by
  have hpath :
      readPath ⟨.route, scope, entries⟩ name = readPath ⟨.route, scope, entries'⟩ name := by
    rw [readPath, readPath, h.value? (by decide)]
  have hname : ∀ marker ∈ Level.route.markers, ∀ text,
      orName ⟨.route, scope, entries⟩ marker name text =
        orName ⟨.route, scope, entries'⟩ marker name text := by
    intro marker hmarker text
    rw [orName.eq_def, orName.eq_def, hmarkers marker hmarker]
  simp (disch := decide) only [read, h.text?, h.parameters, h.responseCodes, h.examples, h.tests,
    h.flag, h.unsigned?, h.value?, hpath, hname]

theorem buildRoute_congr (h : Level.route.Alike entries entries')
    (hpath : promotion.isSome → Mapping.get? entries "path" = Mapping.get? entries' "path")
    (parent : Scope) (name : String) :
    buildRoute parent name promotion (.mapping entries) =
      buildRoute parent name promotion (.mapping entries') := by
  have hread := RouteDetails.read_congr (h.fields.promoted hpath)
    (fun marker hmarker => has_promoted_congr (h.markers marker hmarker) promotion)
    (parent.child name) name
  rw [buildRoute, buildRoute, hread, h.checks, h.routes, h.options]

theorem Document.build_congr (h : Level.document.Alike entries entries') (context : Context) :
    build entries context = build entries' context := by
  have hfields : EntityKind.document.Alike entries entries' := h.fields
  simp (disch := decide) only [build, hfields.text?, h.routes, h.options]

/-- From mappings with fields that are alike the same is built, unless a promotion tells
their paths apart.  In a document or a route the other entries have to be the same. -/
theorem EntityKind.Alike.buildsAlike {kind : EntityKind} (h : kind.Alike entries entries')
    (hrest : kind = .document ∨ kind = .route → kind.rest entries = kind.rest entries')
    (hpath : promotion.isSome → Mapping.get? entries "path" = Mapping.get? entries' "path") :
    kind.BuildsAlike promotion entries entries' := by
  cases kind with
  | document => exact Document.build_congr (.of_rest h (hrest (.inl rfl)))
  | route => exact buildRoute_congr (.of_rest h (hrest (.inr rfl))) hpath
  | parameter => exact Parameter.build_congr h
  | responseCode => exact ResponseCode.build_congr h
  | «example» => exact Example.build_congr h
  | test => exact Test.build_congr h
  | request => exact Request.build_congr h
  | response => exact Response.build_congr h

end Entities

/-! ## Entities within entities -/

namespace EntityKind

section Nested

variable {kind inner : EntityKind} {entries : Mapping} {field : Field} {around : Mapping → Value}
  {own own' : Mapping}

theorem eq_of_name_eq {field' : Field} (hfield : field ∈ kind.fields)
    (hfield' : field' ∈ kind.fields) (hname : field.name = field'.name) : field = field' := by
  have hnodup : ∀ kind : EntityKind, (kind.fields.map Field.name).Nodup := by
    rintro (_ | _ | _ | _ | _ | _ | _ | _) <;> decide
  exact List.inj_on_of_nodup_map (hnodup kind) hfield hfield' hname

theorem alike_set_around (hfield : field ∈ kind.fields) (hnested : nested? field.name = some inner)
    (haround : field.shape.Around around)
    (hget : Mapping.get? entries field.name = some (around own))
    (hown : inner.BuildsAlike none own own') :
    kind.Alike entries (Mapping.set field.name (around own') entries) := by
  intro field' hfield'
  by_cases hname : field.name = field'.name
  · obtain rfl := eq_of_name_eq hfield hfield' hname
    rw [hget, Mapping.get?_set_self]
    refine .inside haround fun kind hkind => ?_
    obtain rfl := Option.some.inj (hnested.symm.trans hkind)
    exact hown
  · rw [Mapping.get?_set_of_ne hname]
    exact .refl _

/-- Where the same is built from two mappings as a nested entity, the same is built of the
entity around them. -/
theorem buildsAlike_set (hfield : field ∈ kind.fields) (hnested : nested? field.name = some inner)
    (haround : field.shape.Around around)
    (hget : Mapping.get? entries field.name = some (around own))
    (hown : inner.BuildsAlike none own own') (promotion : Option Promotion) :
    kind.BuildsAlike promotion entries (Mapping.set field.name (around own') entries) := by
  have hpath : field.name ≠ "path" := by
    intro hpath
    rw [hpath] at hnested
    cases hnested
  refine (alike_set_around hfield hnested haround hget hown).buildsAlike (fun _ => ?_) fun _ => ?_
  · exact (rest_set (hasField_of_mem hfield) _ _).symm
  · exact (Mapping.get?_set_of_ne hpath _ _).symm

end Nested

end EntityKind

/-- Where the same is built from two mappings as a route, the same is built of the document
or the route around them. -/
theorem Level.buildsAlike_child {level : Level} {key : Value} {name : String}
    {inner : Option Promotion} {own own' : Mapping}
    (hrole : level.role key (.mapping own) = .child name inner)
    (hbuild : EntityKind.route.BuildsAlike inner own own') (before after : Mapping)
    (promotion : Option Promotion) :
    level.kind.BuildsAlike promotion (before ++ (key, .mapping own) :: after)
      (before ++ (key, .mapping own') :: after) := by
  have halike := Level.Alike.of_child hrole hbuild before after
  cases level with
  | document => exact Document.build_congr halike
  | route =>
    refine buildRoute_congr halike fun _ => ?_
    have hfield : Level.route.kind.hasField "path" := by decide
    exact Mapping.get?_append_cons_of_ne (isName_field_of_role hrole hfield) _ _ _ _

end Routebook
