import Mathlib.Data.List.Forall2
import Routebook.Proofs.Outcome
import Routebook.Route.Document

/-!
# Mappings that are alike as entities

An entity is built from what its fields are found to be.  Two mappings are alike as
an entity of some kind if each field of the kind is found in both with values that
are alike: the same value, null where the other has no such field, or values that
differ in the mapping of one nested entity only, so that the entity is the same.

From mappings that are alike the same entity is built, or with the same fault.  A
reader of fields has one lemma for this, and the entities follow from their readers.
-/

namespace Routebook

/-! ## Values of fields -/

namespace FieldShape

/-- What stands around the mapping of one nested entity in the value of a field. -/
inductive Around : FieldShape → (Mapping → Value) → Prop
  | entity : Around .entity .mapping
  | entityMap (before : Mapping) (key : Value) (after : Mapping) :
      Around .entityMap fun own => .mapping (before ++ (key, .mapping own) :: after)
  | entityList (before after : List Value) :
      Around .entityList fun own => .sequence (before ++ .mapping own :: after)

/-- Whether values of a field of some shape are alike, as far as mappings of nested
entities are. -/
inductive Alike (related : Mapping → Mapping → Prop) (shape : FieldShape) :
    Option Value → Option Value → Prop
  | refl (value : Option Value) : Alike related shape value value
  | null : Alike related shape (some .null) none
  | inside {around : Mapping → Value} {own own' : Mapping} :
      shape.Around around → related own own' →
      Alike related shape (some (around own)) (some (around own'))

variable {related : Mapping → Mapping → Prop} {value value' : Option Value}

theorem Alike.filter_eq (h : FieldShape.value.Alike related value value') :
    (value.filter fun value => !value.isNull) = value'.filter fun value => !value.isNull := by
  cases h with
  | refl => rfl
  | null => rfl
  | inside haround _ => cases haround

end FieldShape

/-! ## Entities -/

namespace EntityKind

/-- The kind of the entities in a field. -/
def nested? (name : String) : Option EntityKind :=
  match name with
  | "pathParams" | "queryParams" | "headerParams" => some .parameter
  | "responseCodes" => some .responseCode
  | "examples" => some .example
  | "tests" => some .test
  | "request" => some .request
  | "response" => some .response
  | _ => none

/-- Whether the same is built from two mappings as an entity of some kind, wherever
it stands.  Routes may stand under a promoted key. -/
def BuildsAlike : EntityKind → Option Promotion → Mapping → Mapping → Prop
  | .document, _, entries, entries' =>
    ∀ context, Document.build entries context = Document.build entries' context
  | .route, promotion, entries, entries' =>
    ∀ parent name, buildRoute parent name promotion (.mapping entries) =
      buildRoute parent name promotion (.mapping entries')
  | .parameter, _, entries, entries' =>
    ∀ scope, Parameter.build scope (.mapping entries) = Parameter.build scope (.mapping entries')
  | .responseCode, _, entries, entries' =>
    ∀ scope,
      ResponseCode.build scope (.mapping entries) = ResponseCode.build scope (.mapping entries')
  | .example, _, entries, entries' =>
    ∀ scope, Example.build scope (.mapping entries) = Example.build scope (.mapping entries')
  | .test, _, entries, entries' =>
    ∀ scope, Test.build scope (.mapping entries) = Test.build scope (.mapping entries')
  | .request, _, entries, entries' =>
    ∀ scope, Request.build scope (.mapping entries) = Request.build scope (.mapping entries')
  | .response, _, entries, entries' =>
    ∀ scope, Response.build scope (.mapping entries) = Response.build scope (.mapping entries')

/-- Whether the same is built from two mappings as an entity in a field. -/
def BuildsAlikeIn (field : String) (entries entries' : Mapping) : Prop :=
  ∀ kind, nested? field = some kind → kind.BuildsAlike none entries entries'

/-- Whether the fields of two mappings are alike. -/
def Alike (kind : EntityKind) (entries entries' : Mapping) : Prop :=
  ∀ field ∈ kind.fields, field.shape.Alike (BuildsAlikeIn field.name)
    (Mapping.get? entries field.name) (Mapping.get? entries' field.name)

end EntityKind

/-! ## Readers -/

namespace Fields

section Elements

variable {α : Type} {kind : EntityKind} {scope : Scope} {entries entries' : Mapping} {name : String}
  {build : Builder α}

theorem namedEntities_congr {declared declared' : Mapping}
    (h : List.Forall₂
      (fun entry entry' => entry.1 = entry'.1 ∧ ∀ scope, build scope entry.2 = build scope entry'.2)
      declared declared') :
    namedEntities ⟨kind, scope, entries⟩ name build declared =
      namedEntities ⟨kind, scope, entries'⟩ name build declared' := by
  induction h with
  | nil => rfl
  | @cons entry entry' _ _ hhead _ ih =>
    obtain ⟨key, value⟩ := entry
    obtain ⟨key', value'⟩ := entry'
    obtain ⟨rfl, hbuild⟩ := hhead
    simp only [namedEntities, hbuild, ih]
    rfl

theorem listedEntities_congr {items items' : List Value}
    (h : List.Forall₂ (fun item item' => ∀ scope, build scope item = build scope item')
      items items') (index : Nat) :
    listedEntities ⟨kind, scope, entries⟩ name build index items =
      listedEntities ⟨kind, scope, entries'⟩ name build index items' := by
  induction h generalizing index with
  | nil => rfl
  | cons hhead _ ih => simp only [listedEntities, hhead, ih]

end Elements

end Fields

namespace EntityKind.Alike

variable {α : Type} {kind : EntityKind} {entries entries' : Mapping} {name : String}

/-! Fields that hold a value. -/

theorem value? (h : kind.Alike entries entries') (hfield : ⟨name, .value⟩ ∈ kind.fields)
    (scope : Scope) :
    Fields.value? ⟨kind, scope, entries⟩ name = Fields.value? ⟨kind, scope, entries'⟩ name :=
  (h _ hfield).filter_eq

theorem readWith (h : kind.Alike entries entries') (hfield : ⟨name, .value⟩ ∈ kind.fields)
    (scope : Scope) (expected : Expectation) (read : Value → Option α) :
    Fields.readWith ⟨kind, scope, entries⟩ name expected read =
      Fields.readWith ⟨kind, scope, entries'⟩ name expected read := by
  rw [Fields.readWith, Fields.readWith, h.value? hfield]
  rfl

theorem text? (h : kind.Alike entries entries') (hfield : ⟨name, .value⟩ ∈ kind.fields)
    (scope : Scope) :
    Fields.text? ⟨kind, scope, entries⟩ name = Fields.text? ⟨kind, scope, entries'⟩ name :=
  h.readWith hfield scope _ _

theorem flag (h : kind.Alike entries entries') (hfield : ⟨name, .value⟩ ∈ kind.fields)
    (scope : Scope) :
    Fields.flag ⟨kind, scope, entries⟩ name = Fields.flag ⟨kind, scope, entries'⟩ name := by
  rw [Fields.flag, Fields.flag, h.readWith hfield]

theorem unsigned? (h : kind.Alike entries entries') (hfield : ⟨name, .value⟩ ∈ kind.fields)
    (scope : Scope) :
    Fields.unsigned? ⟨kind, scope, entries⟩ name = Fields.unsigned? ⟨kind, scope, entries'⟩ name :=
  h.readWith hfield scope _ _

theorem mapping? (h : kind.Alike entries entries') (hfield : ⟨name, .value⟩ ∈ kind.fields)
    (scope : Scope) :
    Fields.mapping? ⟨kind, scope, entries⟩ name = Fields.mapping? ⟨kind, scope, entries'⟩ name :=
  h.readWith hfield scope _ _

/-! Fields that hold entities. -/

variable {build : Fields.Builder α}

theorem entity? (h : kind.Alike entries entries') (hfield : ⟨name, .entity⟩ ∈ kind.fields)
    (hbuild : ∀ own own', BuildsAlikeIn name own own' →
      ∀ scope, build scope (.mapping own) = build scope (.mapping own')) (scope : Scope) :
    Fields.entity? ⟨kind, scope, entries⟩ name build =
      Fields.entity? ⟨kind, scope, entries'⟩ name build := by
  have halike := h _ hfield
  rw [Fields.entity?, Fields.entity?, Fields.raw?, Fields.raw?]
  generalize Mapping.get? entries name = value at halike
  generalize Mapping.get? entries' name = value' at halike
  cases halike with
  | refl => rfl
  | null => rfl
  | inside haround hsame =>
    cases haround
    exact congrArg (some <$> ·) (hbuild _ _ hsame _)

theorem entitiesByName (h : kind.Alike entries entries')
    (hfield : ⟨name, .entityMap⟩ ∈ kind.fields)
    (hbuild : ∀ own own', BuildsAlikeIn name own own' →
      ∀ scope, build scope (.mapping own) = build scope (.mapping own')) (scope : Scope) :
    Fields.entitiesByName ⟨kind, scope, entries⟩ name build =
      Fields.entitiesByName ⟨kind, scope, entries'⟩ name build := by
  have halike := h _ hfield
  rw [Fields.entitiesByName, Fields.entitiesByName, Fields.raw?, Fields.raw?]
  generalize Mapping.get? entries name = value at halike
  generalize Mapping.get? entries' name = value' at halike
  have hrefl : ∀ declared : Mapping, List.Forall₂ (fun entry entry' : Value × Value =>
      entry.1 = entry'.1 ∧ ∀ scope, build scope entry.2 = build scope entry'.2)
      declared declared := fun declared => List.forall₂_same.2 fun _ _ => ⟨rfl, fun _ => rfl⟩
  cases halike with
  | refl =>
    split
    · rfl
    · rfl
    · exact congrArg (Assoc.ofList <$> ·) (Fields.namedEntities_congr (hrefl _))
    · rfl
  | null => rfl
  | inside haround hsame =>
    cases haround with
    | entityMap before key after =>
      refine congrArg (Assoc.ofList <$> ·) (Fields.namedEntities_congr ?_)
      exact List.rel_append (hrefl before) (.cons ⟨rfl, hbuild _ _ hsame⟩ (hrefl after))

theorem entitiesInOrder (h : kind.Alike entries entries')
    (hfield : ⟨name, .entityList⟩ ∈ kind.fields)
    (hbuild : ∀ own own', BuildsAlikeIn name own own' →
      ∀ scope, build scope (.mapping own) = build scope (.mapping own')) (scope : Scope) :
    Fields.entitiesInOrder ⟨kind, scope, entries⟩ name build =
      Fields.entitiesInOrder ⟨kind, scope, entries'⟩ name build := by
  have halike := h _ hfield
  rw [Fields.entitiesInOrder, Fields.entitiesInOrder, Fields.raw?, Fields.raw?]
  generalize Mapping.get? entries name = value at halike
  generalize Mapping.get? entries' name = value' at halike
  have hrefl : ∀ items : List Value, List.Forall₂ (fun item item' =>
      ∀ scope, build scope item = build scope item') items items :=
    fun items => List.forall₂_same.2 fun _ _ _ => rfl
  cases halike with
  | refl =>
    split
    · rfl
    · rfl
    · exact Fields.listedEntities_congr (hrefl _) 0
    · rfl
  | null => rfl
  | inside haround hsame =>
    cases haround with
    | entityList before after =>
      refine Fields.listedEntities_congr ?_ 0
      exact List.rel_append (hrefl before) (.cons (hbuild _ _ hsame) (hrefl after))

/-! The fields that hold entities of each kind. -/

theorem parameters (h : kind.Alike entries entries') (hfield : ⟨name, .entityMap⟩ ∈ kind.fields)
    (hnested : nested? name = some .parameter) (scope : Scope) :
    Fields.entitiesByName ⟨kind, scope, entries⟩ name Parameter.build =
      Fields.entitiesByName ⟨kind, scope, entries'⟩ name Parameter.build :=
  h.entitiesByName hfield (fun _ _ hsame => hsame .parameter hnested) scope

theorem responseCodes (h : kind.Alike entries entries')
    (hfield : ⟨"responseCodes", .entityMap⟩ ∈ kind.fields) (scope : Scope) :
    Fields.entitiesByName ⟨kind, scope, entries⟩ "responseCodes" ResponseCode.build =
      Fields.entitiesByName ⟨kind, scope, entries'⟩ "responseCodes" ResponseCode.build :=
  h.entitiesByName hfield (fun _ _ hsame => hsame .responseCode rfl) scope

theorem examples (h : kind.Alike entries entries')
    (hfield : ⟨"examples", .entityList⟩ ∈ kind.fields) (scope : Scope) :
    Fields.entitiesInOrder ⟨kind, scope, entries⟩ "examples" Example.build =
      Fields.entitiesInOrder ⟨kind, scope, entries'⟩ "examples" Example.build :=
  h.entitiesInOrder hfield (fun _ _ hsame => hsame .example rfl) scope

theorem tests (h : kind.Alike entries entries')
    (hfield : ⟨"tests", .entityList⟩ ∈ kind.fields) (scope : Scope) :
    Fields.entitiesInOrder ⟨kind, scope, entries⟩ "tests" Test.build =
      Fields.entitiesInOrder ⟨kind, scope, entries'⟩ "tests" Test.build :=
  h.entitiesInOrder hfield (fun _ _ hsame => hsame .test rfl) scope

theorem request (h : kind.Alike entries entries')
    (hfield : ⟨"request", .entity⟩ ∈ kind.fields) (scope : Scope) :
    Fields.entity? ⟨kind, scope, entries⟩ "request" Request.build =
      Fields.entity? ⟨kind, scope, entries'⟩ "request" Request.build :=
  h.entity? hfield (fun _ _ hsame => hsame .request rfl) scope

theorem response (h : kind.Alike entries entries')
    (hfield : ⟨"response", .entity⟩ ∈ kind.fields) (scope : Scope) :
    Fields.entity? ⟨kind, scope, entries⟩ "response" Response.build =
      Fields.entity? ⟨kind, scope, entries'⟩ "response" Response.build :=
  h.entity? hfield (fun _ _ hsame => hsame .response rfl) scope

end EntityKind.Alike

/-! ## Entities without routes below them -/

section Leaves

open Outcome

variable {entries entries' : Mapping}

theorem Parameter.build_congr (h : EntityKind.parameter.Alike entries entries') (scope : Scope) :
    build scope (.mapping entries) = build scope (.mapping entries') := by
  simp (disch := decide) only [build, Fields.ofValue, Value.asFields?, ok_bind, h.text?, h.flag]

theorem ResponseCode.build_congr (h : EntityKind.responseCode.Alike entries entries')
    (scope : Scope) : build scope (.mapping entries) = build scope (.mapping entries') := by
  simp (disch := decide) only [build, Fields.ofValue, Value.asFields?, ok_bind, h.text?, h.flag,
    h.value?]

theorem Request.build_congr (h : EntityKind.request.Alike entries entries') (scope : Scope) :
    build scope (.mapping entries) = build scope (.mapping entries') := by
  simp (disch := decide) only [build, Fields.ofValue, Value.asFields?, ok_bind, h.text?,
    h.mapping?, h.value?]

theorem Response.build_congr (h : EntityKind.response.Alike entries entries') (scope : Scope) :
    build scope (.mapping entries) = build scope (.mapping entries') := by
  simp (disch := decide) only [build, Fields.ofValue, Value.asFields?, ok_bind, h.text?,
    h.unsigned?, h.value?]

theorem Example.build_congr (h : EntityKind.example.Alike entries entries') (scope : Scope) :
    build scope (.mapping entries) = build scope (.mapping entries') := by
  simp (disch := decide) only [build, Fields.ofValue, Value.asFields?, ok_bind, h.text?,
    h.request, h.response]

theorem Test.build_congr (h : EntityKind.test.Alike entries entries') (scope : Scope) :
    build scope (.mapping entries) = build scope (.mapping entries') := by
  simp (disch := decide) only [build, Fields.ofValue, Value.asFields?, ok_bind, h.text?, h.flag,
    h.request, h.response, h.value?]

end Leaves

end Routebook
