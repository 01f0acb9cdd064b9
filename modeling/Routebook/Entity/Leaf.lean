import Routebook.Entity.Fields
import Routebook.Json

/-!
# Entities without routes below them

Parameters, response codes, requests, responses, examples and tests.  Each is
built from its fields alone; what else a mapping holds is ignored.  Where a
mapping is expected, a scalar is shorthand for the most telling field.
-/

namespace Routebook

/-- A parameter of a path, a query or a header. -/
structure Parameter where
  title : Option String
  description : Option String
  dataType : Option String
  required : Bool
  multiple : Bool
deriving DecidableEq, Repr

namespace Parameter

/-- Build a parameter; a scalar is its type. -/
def build (scope : Scope) (value : Value) : Except ShapeFault Parameter := do
  let fields ← Fields.ofValue .parameter "type" scope value
  let title ← fields.text? "title"
  let description ← fields.text? "description"
  let dataType ← fields.text? "type"
  let required ← fields.flag "required"
  let multiple ← fields.flag "multiple"
  return { title, description, dataType, required, multiple }

/-- A parameter as JSON. -/
def toJson (parameter : Parameter) : Json :=
  .object <|
    Json.optional "title" .string parameter.title ++
    Json.optional "description" .string parameter.description ++
    Json.optional "type" .string parameter.dataType ++
    [("required", .bool parameter.required), ("multiple", .bool parameter.multiple)]

end Parameter

/-- What a response code means for a route. -/
structure ResponseCode where
  description : Option String
  success : Bool
  body : Option Value
deriving Repr

namespace ResponseCode

/-- Build a response code; a scalar is its description. -/
def build (scope : Scope) (value : Value) : Except ShapeFault ResponseCode := do
  let fields ← Fields.ofValue .responseCode "description" scope value
  let description ← fields.text? "description"
  let success ← fields.flag "success"
  return { description, success, body := fields.value? "body" }

/-- A response code as JSON. -/
def toJson (code : ResponseCode) : Except JsonKeyFault Json := do
  let body ← Json.optionalValue "body" Json.ofValue code.body
  return .object <|
    Json.optional "description" .string code.description ++
    [("success", .bool code.success)] ++ body

end ResponseCode

/-- The request of an example or a test. -/
structure Request where
  http : Option String
  body : Option Value
  pathParams : Option Mapping
  queryParams : Option Mapping
  headers : Option Mapping
  apiType : Option String
  authType : Option String
deriving Repr

namespace Request

/-- Build a request; a scalar is its verb. -/
def build (scope : Scope) (value : Value) : Except ShapeFault Request := do
  let fields ← Fields.ofValue .request "http" scope value
  let http ← fields.text? "http"
  let pathParams ← fields.mapping? "pathParams"
  let queryParams ← fields.mapping? "queryParams"
  let headers ← fields.mapping? "headers"
  let apiType ← fields.text? "apiType"
  let authType ← fields.text? "authType"
  return {
    http, body := fields.value? "body", pathParams, queryParams, headers, apiType, authType }

/-- A request as JSON. -/
def toJson (request : Request) : Except JsonKeyFault Json := do
  let body ← Json.optionalValue "body" Json.ofValue request.body
  let pathParams ← Json.optionalValue "pathParams" Json.ofMapping request.pathParams
  let queryParams ← Json.optionalValue "queryParams" Json.ofMapping request.queryParams
  let headers ← Json.optionalValue "headers" Json.ofMapping request.headers
  return .object <|
    Json.optional "http" .string request.http ++ body ++ pathParams ++ queryParams ++
    headers ++ Json.optional "apiType" .string request.apiType ++
    Json.optional "authType" .string request.authType

end Request

/-- The response of an example or a test. -/
structure Response where
  code : Option Nat
  body : Option Value
  contentType : Option String
  className : Option String
deriving Repr

namespace Response

/-- Build a response; a scalar is its code. -/
def build (scope : Scope) (value : Value) : Except ShapeFault Response := do
  let fields ← Fields.ofValue .response "code" scope value
  let code ← fields.unsigned? "code"
  let contentType ← fields.text? "contentType"
  let className ← fields.text? "className"
  return { code, body := fields.value? "body", contentType, className }

/-- A response as JSON. -/
def toJson (response : Response) : Except JsonKeyFault Json := do
  let body ← Json.optionalValue "body" Json.ofValue response.body
  return .object <|
    Json.optional "code" Json.ofNat response.code ++ body ++
    Json.optional "contentType" .string response.contentType ++
    Json.optional "className" .string response.className

end Response

/-- An example of a route's use. -/
structure Example where
  title : Option String
  description : Option String
  request : Option Request
  response : Option Response
deriving Repr

namespace Example

/-- Build an example; a scalar is its title. -/
def build (scope : Scope) (value : Value) : Except ShapeFault Example := do
  let fields ← Fields.ofValue .example "title" scope value
  let title ← fields.text? "title"
  let description ← fields.text? "description"
  let request ← fields.entity? "request" Request.build
  let response ← fields.entity? "response" Response.build
  return { title, description, request, response }

/-- The members of an example as JSON. -/
def members (item : Example) : Except JsonKeyFault (List (String × Json)) := do
  let request ← Json.optionalValue "request" Request.toJson item.request
  let response ← Json.optionalValue "response" Response.toJson item.response
  return Json.optional "title" .string item.title ++
    Json.optional "description" .string item.description ++ request ++ response

/-- An example as JSON. -/
def toJson (item : Example) : Except JsonKeyFault Json :=
  .object <$> item.members

end Example

/-- A test of a route's contract: an example, and what to check. -/
structure Test where
  title : Option String
  description : Option String
  request : Option Request
  response : Option Response
  validateRequest : Bool
  validateResponse : Bool
  validateSchema : Bool
  auth : Option Value
deriving Repr

namespace Test

/-- Build a test; a scalar is its title. -/
def build (scope : Scope) (value : Value) : Except ShapeFault Test := do
  let fields ← Fields.ofValue .test "title" scope value
  let title ← fields.text? "title"
  let description ← fields.text? "description"
  let request ← fields.entity? "request" Request.build
  let response ← fields.entity? "response" Response.build
  let validateRequest ← fields.flag "validateRequest"
  let validateResponse ← fields.flag "validateResponse"
  let validateSchema ← fields.flag "validateSchema"
  return {
    title, description, request, response, validateRequest, validateResponse,
    validateSchema, auth := fields.value? "auth" }

/-- The example in a test. -/
def toExample (test : Test) : Example where
  title := test.title
  description := test.description
  request := test.request
  response := test.response

/-- A test as JSON. -/
def toJson (test : Test) : Except JsonKeyFault Json := do
  let members ← test.toExample.members
  let auth ← Json.optionalValue "auth" Json.ofValue test.auth
  return .object <|
    members ++
    [("validateRequest", .bool test.validateRequest),
      ("validateResponse", .bool test.validateResponse),
      ("validateSchema", .bool test.validateSchema)] ++ auth

end Test

end Routebook
