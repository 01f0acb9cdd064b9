import Routebook.Proofs.Outcome
import Routebook.Proofs.Yaml.Parts
import Routebook.Route.Printer

/-!
# Keys that have no text

The name of a member is a text.  A key that is null, a collection, a tagged value or
a number that is not finite has none, and a value with such a key, however deep and
under whatever tags, has no JSON form.  Everything else in a value can be written.
What a key is made of makes no difference, because a key with parts has no text anyway.

A document keeps some values as they are.  It can be written exactly if each of them
can.
-/

namespace Routebook

open Outcome

/-! ## Values -/

namespace Value

/-- Whether a key has no text. -/
def IsTextless : Value → Prop
  | .null | .sequence _ | .mapping _ | .tagged .. => True
  | .number (.float x) => x.isFinite = false
  | .number (.int _) | .bool _ | .string _ => False

/-- Whether a key without a text stands in a value, at any depth and under any tags. -/
def HasTextlessKey (value : Value) : Prop :=
  ∃ key, .key key ∈ value.parts ∧ key.IsTextless

end Value

/-- Whether a part can be written.  Tags always can. -/
def Part.Writable : Part → Prop
  | .tag _ => True
  | .key value => ¬ value.IsTextless

theorem Value.madeOf_writable_iff {value : Value} :
    value.MadeOf Part.Writable ↔ ¬ value.HasTextlessKey := by
  constructor
  · rintro h ⟨key, hkey, htextless⟩
    exact h _ hkey htextless
  · intro h part hpart
    cases part with
    | tag tag => exact trivial
    | key key => exact fun htextless => h ⟨key, hpart, htextless⟩

namespace Json

theorem isOk_keyText (key : Value) : (keyText key).isOk ↔ ¬ key.IsTextless := by
  cases key with
  | null | sequence _ | mapping _ | tagged _ _ =>
    exact iff_of_false Bool.false_ne_true fun h => h trivial
  | bool _ | string _ => exact iff_of_true rfl id
  | number n =>
    cases n with
    | int n => exact iff_of_true rfl id
    | float x =>
      rw [keyText, Value.IsTextless]
      cases x.isFinite with
      | true => exact iff_of_true rfl Bool.false_ne_true.symm
      | false => exact iff_of_false Bool.false_ne_true fun h => h rfl

mutual

theorem isOk_ofValue_iff_madeOf : ∀ value : Value,
    (ofValue value).isOk ↔ value.MadeOf Part.Writable
  | .null => iff_of_true rfl Value.madeOf_null
  | .bool b => iff_of_true rfl (Value.madeOf_bool b)
  | .number (.int _) => iff_of_true rfl (Value.madeOf_of_parts_eq_nil rfl)
  | .number (.float _) => iff_of_true rfl (Value.madeOf_of_parts_eq_nil rfl)
  | .string text => iff_of_true rfl (Value.madeOf_string text)
  | .sequence items => by
    rw [ofValue, isOk_map, isOk_ofItems items, Value.madeOf_sequence]
  | .mapping entries => by
    rw [ofValue, isOk_map, isOk_ofEntries entries, Value.madeOf_mapping]
  | .tagged tag value => by
    rw [ofValue, isOk_map, isOk_ofValue_iff_madeOf value, Value.madeOf_tagged]
    exact (true_and _).symm.to_iff

theorem isOk_ofItems : ∀ items : List Value,
    (ofItems items).isOk ↔ ∀ item ∈ items, item.MadeOf Part.Writable
  | [] => iff_of_true rfl (List.forall_mem_nil _)
  | item :: rest => by
    rw [ofItems, List.forall_mem_cons, ← isOk_ofValue_iff_madeOf item, ← isOk_ofItems rest]
    simp only [isOk_bind, isOk_pure, and_true, exists_and_right, ← isOk_iff_exists]

theorem isOk_ofEntries : ∀ entries : Mapping,
    (ofEntries entries).isOk ↔ Mapping.MadeOf Part.Writable entries
  | [] => iff_of_true rfl Mapping.madeOf_nil
  | (key, value) :: rest => by
    rw [ofEntries, Mapping.madeOf_cons, Part.Writable, ← isOk_keyText,
      ← isOk_ofValue_iff_madeOf value, ← isOk_ofEntries rest]
    simp only [isOk_bind, isOk_pure, and_true, exists_and_right, ← isOk_iff_exists]

end

/-- A value has a JSON form unless there is a key without a text in it. -/
theorem isOk_ofValue (value : Value) : (ofValue value).isOk ↔ ¬ value.HasTextlessKey := by
  rw [isOk_ofValue_iff_madeOf, Value.madeOf_writable_iff]

end Json

/-! ## Values that are kept as they are -/

/-- The values in a response code. -/
def ResponseCode.values (code : ResponseCode) : List Value :=
  code.body.toList

/-- The values in a request. -/
def Request.values (request : Request) : List Value :=
  request.body.toList ++ request.pathParams.toList.map .mapping ++
    request.queryParams.toList.map .mapping ++ request.headers.toList.map .mapping

/-- The values in a response. -/
def Response.values (response : Response) : List Value :=
  response.body.toList

/-- The values in an example. -/
def Example.values (item : Example) : List Value :=
  item.request.toList.flatMap Request.values ++ item.response.toList.flatMap Response.values

/-- The values in a test. -/
def Test.values (test : Test) : List Value :=
  test.toExample.values ++ test.auth.toList

/-- The values in what the fields of a route say. -/
def RouteDetails.values (details : RouteDetails) : List Value :=
  details.requestSchema.toList ++ details.responseSchema.toList ++
    details.responseCodes.flatMap (fun entry => entry.2.values) ++
    details.examples.flatMap Example.values ++ details.tests.flatMap Test.values

namespace Route

mutual

/-- The values in a route and the routes below it. -/
def values : Route → List Value
  | ⟨details, options, routes⟩ => details.values ++ options.map Prod.snd ++ valuesAll routes

/-- The values in routes and the routes below them. -/
def valuesAll : List Route → List Value
  | [] => []
  | route :: rest => values route ++ valuesAll rest

end

end Route

/-- The values in a document and its routes. -/
def Document.values (document : Document) : List Value :=
  document.options.map Prod.snd ++ Route.valuesAll document.routes

/-! ## Members -/

section Members

variable {α : Type} {name : String} {form : α → Except JsonKeyFault Json}

theorem isOk_optionalValue {x? : Option α} :
    (Json.optionalValue name form x?).isOk ↔ ∀ x ∈ x?.toList, (form x).isOk := by
  cases x? with
  | none => exact iff_of_true rfl (List.forall_mem_nil _)
  | some x => rw [Json.optionalValue, isOk_map, Option.toList_some, List.forall_mem_singleton]

theorem isOk_namedJson {entries : List (String × α)} :
    (namedJson form entries).isOk ↔ ∀ entry ∈ entries, (form entry.2).isOk := by
  induction entries with
  | nil => exact iff_of_true rfl (List.forall_mem_nil _)
  | cons entry rest ih =>
    obtain ⟨name, x⟩ := entry
    rw [namedJson, List.forall_mem_cons, ← ih]
    simp only [isOk_bind, isOk_pure, and_true, exists_and_right, ← isOk_iff_exists]

theorem isOk_objectMember {entries : List (String × α)} :
    (objectMember name form entries).isOk ↔ ∀ entry ∈ entries, (form entry.2).isOk := by
  rw [objectMember, ← isOk_namedJson]
  simp only [isOk_bind, isOk_pure, and_true, ← isOk_iff_exists]

end Members

/-!
## Entities

Each of them has a JSON form exactly if the values in it have one.
-/

theorem ResponseCode.isOk_toJson (code : ResponseCode) :
    code.toJson.isOk ↔ ∀ value ∈ code.values, (Json.ofValue value).isOk := by
  simp only [toJson, isOk_bind, isOk_pure, and_true, ← isOk_iff_exists, isOk_optionalValue, values]

theorem Request.isOk_toJson (request : Request) :
    request.toJson.isOk ↔ ∀ value ∈ request.values, (Json.ofValue value).isOk := by
  simp only [toJson, isOk_bind, isOk_pure, and_true, exists_and_right, ← isOk_iff_exists,
    isOk_optionalValue, values, List.forall_mem_append, List.forall_mem_map, Json.ofMapping,
    and_assoc]

theorem Response.isOk_toJson (response : Response) :
    response.toJson.isOk ↔ ∀ value ∈ response.values, (Json.ofValue value).isOk := by
  simp only [toJson, isOk_bind, isOk_pure, and_true, ← isOk_iff_exists, isOk_optionalValue, values]

theorem Example.isOk_members (item : Example) :
    item.members.isOk ↔ ∀ value ∈ item.values, (Json.ofValue value).isOk := by
  simp only [members, isOk_bind, isOk_pure, and_true, exists_and_right, ← isOk_iff_exists,
    isOk_optionalValue, values, List.forall_mem_append, List.forall_mem_flatMap,
    Request.isOk_toJson, Response.isOk_toJson]

theorem Example.isOk_toJson (item : Example) :
    item.toJson.isOk ↔ ∀ value ∈ item.values, (Json.ofValue value).isOk := by
  rw [toJson, isOk_map, isOk_members]

theorem Test.isOk_toJson (test : Test) :
    test.toJson.isOk ↔ ∀ value ∈ test.values, (Json.ofValue value).isOk := by
  simp only [toJson, isOk_bind, isOk_pure, and_true, exists_and_right, ← isOk_iff_exists,
    isOk_optionalValue, values, List.forall_mem_append, Example.isOk_members]

theorem RouteDetails.isOk_members (details : RouteDetails) :
    details.members.isOk ↔ ∀ value ∈ details.values, (Json.ofValue value).isOk := by
  simp only [members, isOk_bind, isOk_pure, and_true, exists_and_right, ← isOk_iff_exists,
    isOk_optionalValue, isOk_objectMember, isOk_mapM, values, List.forall_mem_append,
    List.forall_mem_flatMap, ResponseCode.isOk_toJson, Example.isOk_toJson, Test.isOk_toJson,
    isOk_ok, implies_true, true_and, and_assoc]

namespace Route

mutual

theorem isOk_toJson : ∀ route : Route,
    route.toJson.isOk ↔ ∀ value ∈ route.values, (Json.ofValue value).isOk
  | ⟨details, options, routes⟩ => by
    simp only [toJson, isOk_bind, isOk_pure, and_true, exists_and_right, ← isOk_iff_exists,
      RouteDetails.isOk_members, isOk_objectMember, isOk_toJsons routes, values,
      List.forall_mem_append, List.forall_mem_map, and_assoc]

theorem isOk_toJsons : ∀ routes : List Route,
    (toJsons routes).isOk ↔ ∀ value ∈ valuesAll routes, (Json.ofValue value).isOk
  | [] => iff_of_true rfl (List.forall_mem_nil _)
  | route :: rest => by
    simp only [toJsons, isOk_bind, isOk_pure, and_true, exists_and_right, ← isOk_iff_exists,
      isOk_toJson route, isOk_toJsons rest, valuesAll, List.forall_mem_append]

end

end Route

theorem Document.isOk_toJson (document : Document) :
    document.toJson.isOk ↔ ∀ value ∈ document.values, (Json.ofValue value).isOk := by
  simp only [toJson, isOk_bind, isOk_pure, and_true, exists_and_right, ← isOk_iff_exists,
    isOk_namedJson, Route.isOk_toJsons, values, List.forall_mem_append, List.forall_mem_map]
  exact and_comm

end Routebook
