import Routebook.Entity.Leaf

/-!
# Routes

A route is a node of the tree that a document describes.  Its details are what
its own fields say; below it stand its options and the routes it contains.
-/

namespace Routebook

/-- How a route extends the path of the route around it. -/
inductive RoutePath
  /-- By a segment of its own. -/
  | segment (text : String)
  /-- Not at all: it shares the path. -/
  | shared
deriving DecidableEq, Repr

namespace RoutePath

/-- The segment, if there is one. -/
def segment? : RoutePath → Option String
  | .segment text => some text
  | .shared => none

/-- A path as JSON. -/
def toJson : RoutePath → Json
  | .segment text => .string text
  | .shared => .bool false

end RoutePath

/-- What the fields of a route say. -/
structure RouteDetails where
  name : String
  path : Option RoutePath := none
  title : Option String := none
  description : Option String := none
  controller : Option String := none
  method : Option String := none
  http : Option String := none
  apiType : Option String := none
  authType : Option String := none
  requestSchema : Option Value := none
  responseSchema : Option Value := none
  pathParams : List (String × Parameter) := []
  queryParams : List (String × Parameter) := []
  headerParams : List (String × Parameter) := []
  responseCodes : List (String × ResponseCode) := []
  examples : List Example := []
  tests : List Test := []
  isVirtual : Bool := false
  noPath : Bool := false
  defaultRoute : Bool := false
  redirect : Option String := none
  redirectCode : Option Nat := none
deriving Repr

/-- A route with everything below it. -/
structure Route where
  details : RouteDetails
  options : List (String × Value)
  routes : List Route
deriving Repr

namespace Route

/-- The key under which the route stands. -/
def name (route : Route) : String :=
  route.details.name

/-- The route with the given name among routes, the first of several. -/
def find? (routes : List Route) (name : String) : Option Route :=
  routes.find? fun route => route.name == name

/-- The route of the given name directly below. -/
def child? (route : Route) (name : String) : Option Route :=
  find? route.routes name

/-- Whether there are routes below. -/
def hasChildren (route : Route) : Bool :=
  !route.routes.isEmpty

mutual

/-- The number of routes from this one downwards. -/
def count : Route → Nat
  | ⟨_, _, routes⟩ => 1 + countAll routes

/-- The number of routes from the given ones downwards. -/
def countAll : List Route → Nat
  | [] => 0
  | route :: rest => count route + countAll rest

end

end Route

end Routebook
