/-!
# Kinds of entities and their fields

Each kind of entity has a list of the fields that belong to it, in the order in
which they are taken out of a mapping.  The shape of a field says how its value
becomes part of the entity.
-/

namespace Routebook

/-- How a field's value becomes part of an entity. -/
inductive FieldShape
  /-- Kept as a scalar or as a value. -/
  | value
  /-- A nested entity. -/
  | entity
  /-- A mapping from names to nested entities. -/
  | entityMap
  /-- A sequence of nested entities. -/
  | entityList
deriving DecidableEq, Repr

/-- A field that belongs to a kind of entity. -/
structure Field where
  name : String
  shape : FieldShape
deriving DecidableEq, Repr

/-- The kinds of entities. -/
inductive EntityKind
  | document
  | route
  | parameter
  | responseCode
  | example
  | test
  | request
  | response
deriving DecidableEq, Repr

/-- The fields of a document, which every route has too. -/
def commonFields : List Field :=
  [⟨"title", .value⟩, ⟨"description", .value⟩, ⟨"controller", .value⟩,
    ⟨"method", .value⟩, ⟨"apiType", .value⟩, ⟨"authType", .value⟩]

/-- The fields of an example, which every test has too. -/
def exampleFields : List Field :=
  [⟨"title", .value⟩, ⟨"description", .value⟩, ⟨"request", .entity⟩, ⟨"response", .entity⟩]

namespace EntityKind

/-- The name of a kind in messages. -/
def label : EntityKind → String
  | .document => "document"
  | .route => "route"
  | .parameter => "parameter"
  | .responseCode => "response code"
  | .example => "example"
  | .test => "test"
  | .request => "request"
  | .response => "response"

/-- All kinds. -/
def all : List EntityKind :=
  [.document, .route, .parameter, .responseCode, .example, .test, .request, .response]

/-- The kind with the given name. -/
def ofLabel? (label : String) : Option EntityKind :=
  all.find? fun kind => kind.label == label

/-- The fields of a kind, in order. -/
def fields : EntityKind → List Field
  | .document => commonFields
  | .route =>
    commonFields ++
      [⟨"path", .value⟩, ⟨"http", .value⟩, ⟨"requestSchema", .value⟩,
        ⟨"responseSchema", .value⟩, ⟨"pathParams", .entityMap⟩, ⟨"queryParams", .entityMap⟩,
        ⟨"headerParams", .entityMap⟩, ⟨"responseCodes", .entityMap⟩,
        ⟨"examples", .entityList⟩, ⟨"tests", .entityList⟩, ⟨"virtual", .value⟩,
        ⟨"noPath", .value⟩, ⟨"defaultRoute", .value⟩, ⟨"redirect", .value⟩,
        ⟨"redirectCode", .value⟩]
  | .parameter =>
    [⟨"title", .value⟩, ⟨"description", .value⟩, ⟨"type", .value⟩, ⟨"required", .value⟩,
      ⟨"multiple", .value⟩]
  | .responseCode => [⟨"description", .value⟩, ⟨"success", .value⟩, ⟨"body", .value⟩]
  | .example => exampleFields
  | .test =>
    exampleFields ++
      [⟨"validateRequest", .value⟩, ⟨"validateResponse", .value⟩, ⟨"validateSchema", .value⟩,
        ⟨"auth", .value⟩]
  | .request =>
    [⟨"http", .value⟩, ⟨"body", .value⟩, ⟨"pathParams", .value⟩, ⟨"queryParams", .value⟩,
      ⟨"headers", .value⟩, ⟨"apiType", .value⟩, ⟨"authType", .value⟩]
  | .response =>
    [⟨"code", .value⟩, ⟨"body", .value⟩, ⟨"contentType", .value⟩, ⟨"className", .value⟩]

/-- The shape of a field, if the field belongs to the kind. -/
def shape? (kind : EntityKind) (name : String) : Option FieldShape :=
  (kind.fields.find? fun field => field.name == name).map Field.shape

/-- Whether a field belongs to the kind. -/
def hasField (kind : EntityKind) (name : String) : Bool :=
  kind.fields.any fun field => field.name == name

end EntityKind

end Routebook
