import Routebook.Route.Document

/-!
# Documents as JSON

Members stand in a fixed order.  What is absent or empty is left out, except for
the routes and options of the document itself.
-/

namespace Routebook

/-- The JSON form of a list under names, one after the other. -/
def namedJson {α : Type} (form : α → Except JsonKeyFault Json) :
    List (String × α) → Except JsonKeyFault (List (String × Json))
  | [] => .ok []
  | (name, x) :: rest => do
    let json ← form x
    let rest ← namedJson form rest
    return (name, json) :: rest

/-- A member that holds an object, left out if the object is empty. -/
def objectMember {α : Type} (name : String) (form : α → Except JsonKeyFault Json)
    (entries : List (String × α)) : Except JsonKeyFault (List (String × Json)) := do
  let members ← namedJson form entries
  return if members.isEmpty then [] else [(name, .object members)]

/-- A member that holds an array, left out if the array is empty. -/
def arrayMember (name : String) (items : List Json) : List (String × Json) :=
  if items.isEmpty then [] else [(name, .array items)]

/-- The members for the details of a route. -/
def RouteDetails.members (details : RouteDetails) :
    Except JsonKeyFault (List (String × Json)) := do
  let requestSchema ← Json.optionalValue "requestSchema" Json.ofValue details.requestSchema
  let responseSchema ← Json.optionalValue "responseSchema" Json.ofValue details.responseSchema
  let parameter (parameter : Parameter) : Except JsonKeyFault Json := .ok parameter.toJson
  let pathParams ← objectMember "pathParams" parameter details.pathParams
  let queryParams ← objectMember "queryParams" parameter details.queryParams
  let headerParams ← objectMember "headerParams" parameter details.headerParams
  let responseCodes ← objectMember "responseCodes" ResponseCode.toJson details.responseCodes
  let examples ← details.examples.mapM Example.toJson
  let tests ← details.tests.mapM Test.toJson
  return [("name", .string details.name)] ++
    Json.optional "path" RoutePath.toJson details.path ++
    Json.optional "title" .string details.title ++
    Json.optional "description" .string details.description ++
    Json.optional "controller" .string details.controller ++
    Json.optional "method" .string details.method ++
    Json.optional "http" .string details.http ++
    Json.optional "apiType" .string details.apiType ++
    Json.optional "authType" .string details.authType ++
    requestSchema ++ responseSchema ++ pathParams ++ queryParams ++ headerParams ++
    responseCodes ++ arrayMember "examples" examples ++ arrayMember "tests" tests ++
    [("virtual", .bool details.isVirtual), ("noPath", .bool details.noPath),
      ("defaultRoute", .bool details.defaultRoute)] ++
    Json.optional "redirect" .string details.redirect ++
    Json.optional "redirectCode" Json.ofNat details.redirectCode

mutual

/-- A route as JSON. -/
def Route.toJson : Route → Except JsonKeyFault Json
  | ⟨details, options, routes⟩ => do
    let members ← details.members
    let options ← objectMember "options" Json.ofValue options
    let routes ← Route.toJsons routes
    return .object (members ++ options ++ arrayMember "routes" routes)

/-- Routes as JSON. -/
def Route.toJsons : List Route → Except JsonKeyFault (List Json)
  | [] => .ok []
  | route :: rest => do
    let json ← Route.toJson route
    let rest ← Route.toJsons rest
    return json :: rest

end

/-- A document as JSON, with the revision of the model at the end. -/
def Document.toJson (document : Document) : Except JsonKeyFault Json := do
  let routes ← Route.toJsons document.routes
  let options ← namedJson Json.ofValue document.options
  return .object <|
    Json.optional "title" .string document.title ++
    Json.optional "description" .string document.description ++
    Json.optional "controller" .string document.controller ++
    Json.optional "method" .string document.method ++
    Json.optional "apiType" .string document.apiType ++
    Json.optional "authType" .string document.authType ++
    [("routes", .array routes), ("options", .object options),
      ("version", .string Document.version)]

end Routebook
