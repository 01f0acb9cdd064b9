import Routebook.Expansion.Context
import Routebook.Route.Build

/-!
# Documents

A document is the root of a tree of routes.  It keeps the context in which it
was expanded.
-/

namespace Routebook

/-- A document. -/
structure Document where
  title : Option String
  description : Option String
  controller : Option String
  method : Option String
  apiType : Option String
  authType : Option String
  routes : List Route
  options : List (String × Value)
  context : Context

namespace Document

/-- The revision of the model that documents follow. -/
def version : String := "2.0"

/-- Build a document from its expanded root. -/
def build (entries : Mapping) (context : Context) : Except ShapeFault Document := do
  let fields : Fields := ⟨.document, .root, entries⟩
  let title ← fields.text? "title"
  let description ← fields.text? "description"
  let controller ← fields.text? "controller"
  let method ← fields.text? "method"
  let apiType ← fields.text? "apiType"
  let authType ← fields.text? "authType"
  let routes ← buildRoutes .document .root entries
  return {
    title, description, controller, method, apiType, authType, routes,
    options := Level.document.options entries, context }

/-- What handler methods start with. -/
def methodPrefix (document : Document) : Option String :=
  document.context.methodPrefix

/-- An option of the document. -/
def option? (document : Document) (name : String) : Option Value :=
  document.options.lookup name

/-- The top-level route with the given name. -/
def route? (document : Document) (name : String) : Option Route :=
  Route.find? document.routes name

/-- The number of routes. -/
def routeCount (document : Document) : Nat :=
  Route.countAll document.routes

end Document

end Routebook
