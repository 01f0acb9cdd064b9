import Routebook.Proofs.Outcome
import Routebook.Route.Build

/-!
# Places are for messages only

An entity is the same wherever it stands: the place at which it is built shows in
the faults of the building, and nowhere else.
-/

namespace Routebook

open Outcome

/-- Whether a way to build an entity has the same results at all places. -/
def Unlocated {α : Type} (build : Fields.Builder α) : Prop :=
  ∀ scope scope' value, SameResult (build scope value) (build scope' value)

namespace Fields

section Readings

variable {α : Type} {fields fields' : Fields} (h : fields.entries = fields'.entries)

include h

theorem raw?_eq (name : String) : fields.raw? name = fields'.raw? name := by
  rw [raw?, raw?, h]

theorem value?_eq (name : String) : fields.value? name = fields'.value? name := by
  rw [value?, value?, raw?_eq h]

theorem sameResult_readWith (name : String) (expected : Expectation) (read : Value → Option α) :
    SameResult (fields.readWith name expected read) (fields'.readWith name expected read) := by
  rw [readWith, readWith, value?_eq h]
  split
  · exact .refl _
  · split
    · exact .refl _
    · exact sameResult_error _ _

theorem sameResult_text? (name : String) : SameResult (fields.text? name) (fields'.text? name) :=
  sameResult_readWith h name .scalar Value.text?

theorem sameResult_flag (name : String) : SameResult (fields.flag name) (fields'.flag name) :=
  sameResult_bind (sameResult_readWith h name .boolean _) fun _ => .refl _

theorem sameResult_unsigned? (name : String) :
    SameResult (fields.unsigned? name) (fields'.unsigned? name) :=
  sameResult_readWith h name .unsigned Value.unsigned?

theorem sameResult_mapping? (name : String) :
    SameResult (fields.mapping? name) (fields'.mapping? name) :=
  sameResult_readWith h name .mapping _

end Readings

section Entities

variable {α : Type} {fields fields' : Fields} {build : Builder α} (hbuild : Unlocated build)

include hbuild

theorem sameResult_namedEntities (name : String) (entries : Mapping) :
    SameResult (fields.namedEntities name build entries)
      (fields'.namedEntities name build entries) := by
  induction entries with
  | nil => exact .refl _
  | cons entry rest ih =>
    obtain ⟨key, value⟩ := entry
    rw [namedEntities, namedEntities]
    split
    · exact sameResult_error _ _
    · exact sameResult_bind (hbuild _ _ value) fun _ => sameResult_bind ih fun _ => .refl _

theorem sameResult_listedEntities (name : String) (items : List Value) (index : Nat) :
    SameResult (fields.listedEntities name build index items)
      (fields'.listedEntities name build index items) := by
  induction items generalizing index with
  | nil => exact .refl _
  | cons item rest ih =>
    rw [listedEntities, listedEntities]
    exact sameResult_bind (hbuild _ _ item) fun _ => sameResult_bind (ih _) fun _ => .refl _

variable (h : fields.entries = fields'.entries)

include h

theorem sameResult_entity? (name : String) :
    SameResult (fields.entity? name build) (fields'.entity? name build) := by
  rw [entity?, entity?, raw?_eq h]
  split
  · exact .refl _
  · exact .refl _
  · exact sameResult_map _ (hbuild _ _ _)

theorem sameResult_entitiesByName (name : String) :
    SameResult (fields.entitiesByName name build) (fields'.entitiesByName name build) := by
  rw [entitiesByName, entitiesByName, raw?_eq h]
  split
  · exact .refl _
  · exact .refl _
  · exact sameResult_map _ (sameResult_namedEntities hbuild name _)
  · exact sameResult_error _ _

theorem sameResult_entitiesInOrder (name : String) :
    SameResult (fields.entitiesInOrder name build) (fields'.entitiesInOrder name build) := by
  rw [entitiesInOrder, entitiesInOrder, raw?_eq h]
  split
  · exact .refl _
  · exact .refl _
  · exact sameResult_listedEntities hbuild name _ 0
  · exact sameResult_error _ _

end Entities

/-- The fields that a value stands for are read alike at all places. -/
theorem sameResult_ofValue_bind {α : Type} {next next' : Fields → Except ShapeFault α}
    (hnext : ∀ fields fields' : Fields, fields.entries = fields'.entries →
      SameResult (next fields) (next' fields')) (kind : EntityKind) (shorthand : String)
    (scope scope' : Scope) (value : Value) :
    SameResult (ofValue kind shorthand scope value >>= next)
      (ofValue kind shorthand scope' value >>= next') := by
  rw [ofValue, ofValue]
  split
  · exact hnext _ _ rfl
  · exact sameResult_error _ _

end Fields

open Fields

/-! ## The kinds of entities -/

theorem unlocated_parameter : Unlocated Parameter.build := by
  intro scope scope' value
  refine sameResult_ofValue_bind (fun fields fields' h => ?_) .parameter "type" scope scope' value
  refine sameResult_bind (sameResult_text? h "title") fun title => ?_
  refine sameResult_bind (sameResult_text? h "description") fun description => ?_
  refine sameResult_bind (sameResult_text? h "type") fun dataType => ?_
  refine sameResult_bind (sameResult_flag h "required") fun required => ?_
  exact sameResult_bind (sameResult_flag h "multiple") fun multiple => .refl _

theorem unlocated_responseCode : Unlocated ResponseCode.build := by
  intro scope scope' value
  refine sameResult_ofValue_bind (fun fields fields' h => ?_) .responseCode "description"
    scope scope' value
  refine sameResult_bind (sameResult_text? h "description") fun description => ?_
  refine sameResult_bind (sameResult_flag h "success") fun success => ?_
  rw [value?_eq h]
  exact .refl _

theorem unlocated_request : Unlocated Request.build := by
  intro scope scope' value
  refine sameResult_ofValue_bind (fun fields fields' h => ?_) .request "http" scope scope' value
  refine sameResult_bind (sameResult_text? h "http") fun http => ?_
  refine sameResult_bind (sameResult_mapping? h "pathParams") fun pathParams => ?_
  refine sameResult_bind (sameResult_mapping? h "queryParams") fun queryParams => ?_
  refine sameResult_bind (sameResult_mapping? h "headers") fun headers => ?_
  refine sameResult_bind (sameResult_text? h "apiType") fun apiType => ?_
  refine sameResult_bind (sameResult_text? h "authType") fun authType => ?_
  rw [value?_eq h]
  exact .refl _

theorem unlocated_response : Unlocated Response.build := by
  intro scope scope' value
  refine sameResult_ofValue_bind (fun fields fields' h => ?_) .response "code" scope scope' value
  refine sameResult_bind (sameResult_unsigned? h "code") fun code => ?_
  refine sameResult_bind (sameResult_text? h "contentType") fun contentType => ?_
  refine sameResult_bind (sameResult_text? h "className") fun className => ?_
  rw [value?_eq h]
  exact .refl _

theorem unlocated_example : Unlocated Example.build := by
  intro scope scope' value
  refine sameResult_ofValue_bind (fun fields fields' h => ?_) .example "title" scope scope' value
  refine sameResult_bind (sameResult_text? h "title") fun title => ?_
  refine sameResult_bind (sameResult_text? h "description") fun description => ?_
  refine sameResult_bind (sameResult_entity? unlocated_request h "request") fun request => ?_
  exact sameResult_bind (sameResult_entity? unlocated_response h "response") fun response => .refl _

theorem unlocated_test : Unlocated Test.build := by
  intro scope scope' value
  refine sameResult_ofValue_bind (fun fields fields' h => ?_) .test "title" scope scope' value
  refine sameResult_bind (sameResult_text? h "title") fun title => ?_
  refine sameResult_bind (sameResult_text? h "description") fun description => ?_
  refine sameResult_bind (sameResult_entity? unlocated_request h "request") fun request => ?_
  refine sameResult_bind (sameResult_entity? unlocated_response h "response") fun response => ?_
  refine sameResult_bind (sameResult_flag h "validateRequest") fun validateRequest => ?_
  refine sameResult_bind (sameResult_flag h "validateResponse") fun validateResponse => ?_
  refine sameResult_bind (sameResult_flag h "validateSchema") fun validateSchema => ?_
  rw [value?_eq h]
  exact .refl _

/-! ## Routes -/

theorem sameResult_pathOf (name : String) (scope scope' : Scope) (value : Value) :
    SameResult (RouteDetails.pathOf name scope value) (RouteDetails.pathOf name scope' value) := by
  cases value with
  | bool b => cases b <;> exact .refl _
  | null | number _ | string _ => exact .refl _
  | sequence _ | mapping _ | tagged _ _ => exact sameResult_error _ _

theorem sameResult_readPath {fields fields' : Fields} (h : fields.entries = fields'.entries)
    (name : String) :
    SameResult (RouteDetails.readPath fields name) (RouteDetails.readPath fields' name) := by
  rw [RouteDetails.readPath, RouteDetails.readPath, value?_eq h]
  split
  · exact .refl _
  · exact sameResult_pathOf name _ _ _

theorem sameResult_details {fields fields' : Fields} (h : fields.entries = fields'.entries)
    (name : String) :
    SameResult (RouteDetails.read name fields) (RouteDetails.read name fields') := by
  rw [RouteDetails.read, RouteDetails.read]
  refine sameResult_bind (sameResult_text? h "title") fun title => ?_
  refine sameResult_bind (sameResult_text? h "description") fun description => ?_
  refine sameResult_bind (sameResult_text? h "controller") fun controller => ?_
  refine sameResult_bind (sameResult_text? h "method") fun method => ?_
  refine sameResult_bind (sameResult_text? h "apiType") fun apiType => ?_
  refine sameResult_bind (sameResult_text? h "authType") fun authType => ?_
  refine sameResult_bind (sameResult_text? h "http") fun http => ?_
  refine sameResult_bind (sameResult_entitiesByName unlocated_parameter h _) fun pathParams => ?_
  refine sameResult_bind (sameResult_entitiesByName unlocated_parameter h _) fun queryParams => ?_
  refine sameResult_bind (sameResult_entitiesByName unlocated_parameter h _) fun headerParams => ?_
  refine sameResult_bind (sameResult_entitiesByName unlocated_responseCode h _) fun codes => ?_
  refine sameResult_bind (sameResult_entitiesInOrder unlocated_example h _) fun examples => ?_
  refine sameResult_bind (sameResult_entitiesInOrder unlocated_test h _) fun tests => ?_
  refine sameResult_bind (sameResult_flag h "virtual") fun isVirtual => ?_
  refine sameResult_bind (sameResult_flag h "noPath") fun noPath => ?_
  refine sameResult_bind (sameResult_flag h "defaultRoute") fun defaultRoute => ?_
  refine sameResult_bind (sameResult_text? h "redirect") fun redirect => ?_
  refine sameResult_bind (sameResult_unsigned? h "redirectCode") fun redirectCode => ?_
  refine sameResult_bind (sameResult_readPath h name) fun path => ?_
  simp only [RouteDetails.orName, h, value?_eq h]
  exact .refl _

theorem sameResult_checkPromotions (scope scope' : Scope) (entries : Mapping)
    (all : List Promotion) :
    SameResult (checkPromotions scope entries all) (checkPromotions scope' entries all) := by
  induction all with
  | nil => exact .refl _
  | cons promotion rest ih =>
    rw [checkPromotions, checkPromotions]
    split
    · exact ih
    · split
      · exact ih
      · exact sameResult_error _ _

mutual

/-- A route is the same at all places. -/
theorem sameResult_buildRoute : ∀ (value : Value) (parent parent' : Scope) (name : String)
    (promotion : Option Promotion),
    SameResult (buildRoute parent name promotion value) (buildRoute parent' name promotion value)
  | .mapping entries, parent, parent', name, promotion => by
    rw [buildRoute, buildRoute]
    have hdetails := @sameResult_details ⟨.route, parent.child name, promoted promotion entries⟩
      ⟨.route, parent'.child name, promoted promotion entries⟩ rfl name
    refine sameResult_bind hdetails fun details => ?_
    refine sameResult_bind (sameResult_checkPromotions _ _ entries promotions) fun _ => ?_
    exact sameResult_bind (sameResult_buildRoutes entries .route _ _) fun _ => .refl _
  | .null, parent, parent', name, promotion | .bool _, parent, parent', name, promotion
  | .number _, parent, parent', name, promotion | .string _, parent, parent', name, promotion
  | .sequence _, parent, parent', name, promotion
  | .tagged _ _, parent, parent', name, promotion => by
    simp only [buildRoute]
    refine sameResult_ofValue_bind (fun fields fields' h => ?_) .route "description" _ _ _
    refine sameResult_bind (sameResult_details ?_ name) fun _ => .refl _
    rw [h]

theorem sameResult_buildRoutes : ∀ (entries : Mapping) (level : Level) (scope scope' : Scope),
    SameResult (buildRoutes level scope entries) (buildRoutes level scope' entries)
  | [], level, scope, scope' => .refl _
  | (key, value) :: rest, level, scope, scope' => by
    rw [buildRoutes, buildRoutes]
    cases level.role key value with
    | child name promotion =>
      refine sameResult_bind (sameResult_buildRoute value _ _ name promotion) fun route => ?_
      exact sameResult_bind (sameResult_buildRoutes rest level _ _) fun _ => .refl _
    | nameless => exact sameResult_error _ _
    | field | option _ | empty => exact sameResult_buildRoutes rest level _ _

end

end Routebook
