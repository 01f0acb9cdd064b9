import Routebook.Route.Basic
import Routebook.Route.Level

/-!
# Building routes

The details of a route are read from its fields.  A route without a path of its
own gets its name as the segment, unless it says that it has none.

Then the entries that are neither fields nor options are built as routes, in the
order in which they are written.  A scalar in place of a route is its
description.
-/

namespace Routebook

namespace RouteDetails

/-- What the path field says. -/
def pathOf (name : String) (scope : Scope) : Value → Except ShapeFault (Option RoutePath)
  | .null => .ok none
  | .bool false => .ok (some .shared)
  | .bool true => .ok (some (.segment name))
  | .string text => .ok (some (.segment text))
  | .number n => .ok (some (.segment n.text))
  | other => .error (.path scope other.kind)

/-- Read the path field. -/
def readPath (fields : Fields) (name : String) : Except ShapeFault (Option RoutePath) :=
  match fields.value? "path" with
  | none => .ok none
  | some value => pathOf name fields.scope value

/-- The field, or the name of the route if the field is absent and a tag has
left the marker. -/
def orName (fields : Fields) (marker name : String) (field : Option String) : Option String :=
  match field with
  | some text => some text
  | none => if Mapping.has fields.entries marker then some name else none

/-- Read the details of a route. -/
def read (name : String) (fields : Fields) : Except ShapeFault RouteDetails := do
  let title ← fields.text? "title"
  let description ← fields.text? "description"
  let controller ← fields.text? "controller"
  let method ← fields.text? "method"
  let apiType ← fields.text? "apiType"
  let authType ← fields.text? "authType"
  let http ← fields.text? "http"
  let pathParams ← fields.entitiesByName "pathParams" Parameter.build
  let queryParams ← fields.entitiesByName "queryParams" Parameter.build
  let headerParams ← fields.entitiesByName "headerParams" Parameter.build
  let responseCodes ← fields.entitiesByName "responseCodes" ResponseCode.build
  let examples ← fields.entitiesInOrder "examples" Example.build
  let tests ← fields.entitiesInOrder "tests" Test.build
  let isVirtual ← fields.flag "virtual"
  let noPath ← fields.flag "noPath"
  let defaultRoute ← fields.flag "defaultRoute"
  let redirect ← fields.text? "redirect"
  let redirectCode ← fields.unsigned? "redirectCode"
  let path ← readPath fields name
  return {
    name
    path := if path.isNone && !noPath then some (.segment name) else path
    title
    description
    controller := orName fields Keyword.controllerMarker name controller
    method := orName fields Keyword.methodMarker name method
    http
    apiType
    authType
    requestSchema := fields.value? "requestSchema"
    responseSchema := fields.value? "responseSchema"
    pathParams
    queryParams
    headerParams
    responseCodes
    examples
    tests
    isVirtual
    noPath
    defaultRoute
    redirect
    redirectCode }

end RouteDetails

/-- Check that each promoted key of a route stands for a route. -/
def checkPromotions (scope : Scope) (entries : Mapping) :
    List Promotion → Except ShapeFault Unit
  | [] => .ok ()
  | promotion :: rest =>
    match Mapping.get? entries promotion.key with
    | none => checkPromotions scope entries rest
    | some value =>
      match value.asFields? "description" with
      | some _ => checkPromotions scope entries rest
      | none => .error (.promoted promotion.key scope value.kind)

/-- The entries of a route, as its promotion completes them. -/
def promoted (promotion : Option Promotion) (entries : Mapping) : Mapping :=
  match promotion with
  | some promotion => promotion.stamp entries
  | none => entries

mutual

/-- Build the route that stands under a name. -/
def buildRoute (parent : Scope) (name : String) (promotion : Option Promotion) :
    Value → Except ShapeFault Route
  | .mapping entries => do
    let scope := parent.child name
    let details ← RouteDetails.read name ⟨.route, scope, promoted promotion entries⟩
    checkPromotions scope entries promotions
    let routes ← buildRoutes .route scope entries
    return ⟨details, Level.route.options entries, routes⟩
  | value => do
    let fields ← Fields.ofValue .route "description" (parent.child name) value
    let details ← RouteDetails.read name
      { fields with entries := promoted promotion fields.entries }
    return ⟨details, [], []⟩

/-- Build the routes among the entries of a mapping. -/
def buildRoutes (level : Level) (scope : Scope) : Mapping → Except ShapeFault (List Route)
  | [] => .ok []
  | (key, value) :: rest =>
    match level.role key value with
    | .child name promotion => do
      let route ← buildRoute scope name promotion value
      let routes ← buildRoutes level scope rest
      return route :: routes
    | .nameless => .error (.routeKey scope key.kind)
    | .field | .option _ | .empty => buildRoutes level scope rest

end

/-- Build the route with the given entries. -/
def Route.build (parent : Scope) (name : String) (entries : Mapping) :
    Except ShapeFault Route :=
  buildRoute parent name none (.mapping entries)

end Routebook
