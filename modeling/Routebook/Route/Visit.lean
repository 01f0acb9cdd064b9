import Routebook.Route.Document

/-!
# Visiting the routes of a document

A visit is a route together with the routes around it, up to the document.  What
a route does not say itself, the nearest route around it says, and the document
in the end.

The visits of a document come in the order in which the routes are written, each
route before the routes below it.
-/

namespace Routebook

/-- A route, seen from the root of its document. -/
structure Visit where
  document : Document
  /-- The routes around it, outermost first. -/
  ancestors : List Route
  route : Route

namespace Visit

/-- The route and the routes around it, innermost first. -/
def lineage (visit : Visit) : List Route :=
  visit.route :: visit.ancestors.reverse

/-- The segments that the routes from the outside in add to the path. -/
def segments (visit : Visit) : List String :=
  let own := (visit.ancestors ++ [visit.route]).filterMap fun route =>
    route.details.path.bind RoutePath.segment?
  (own.map (Text.trim '/')).filter fun segment => segment != ""

/-- The path of the route. -/
def path (visit : Visit) : String :=
  "/" ++ Text.join '/' visit.segments

/-- The nearest controller. -/
def controller? (visit : Visit) : Option String :=
  (visit.lineage.findSome? fun route => route.details.controller).or visit.document.controller

/-- The nearest verb. -/
def http? (visit : Visit) : Option String :=
  visit.lineage.findSome? fun route => route.details.http

/-- The method of the route itself, with what handler methods start with. -/
def handlerMethod? (visit : Visit) : Option String :=
  visit.route.details.method.map fun method =>
    (visit.document.methodPrefix.getD "") ++ method

/-- The nearest option of the given name. -/
def option? (visit : Visit) (name : String) : Option Value :=
  (visit.lineage.findSome? fun route => route.options.lookup name).or
    (visit.document.option? name)

/-- Whether the route or one around it only groups routes. -/
def isVirtual (visit : Visit) : Bool :=
  visit.lineage.any fun route => route.details.isVirtual

/-- The number of routes around the route. -/
def depth (visit : Visit) : Nat :=
  visit.ancestors.length

end Visit

/-- What a walk through a document keeps. -/
structure Tour where
  /-- The routes around the place that the walk has reached, outermost first. -/
  ancestors : List Route
  /-- The visits so far. -/
  visits : List Visit

namespace Tour

mutual

/-- Visit a route and the routes below it. -/
def enter (document : Document) (tour : Tour) : Route → Tour
  | ⟨details, options, routes⟩ =>
    let route : Route := ⟨details, options, routes⟩
    let visit : Visit := ⟨document, tour.ancestors, route⟩
    let inside := enterAll document ⟨tour.ancestors ++ [route], tour.visits ++ [visit]⟩ routes
    { inside with ancestors := inside.ancestors.dropLast }

/-- Visit routes next to each other and those below them. -/
def enterAll (document : Document) (tour : Tour) : List Route → Tour
  | [] => tour
  | route :: rest => enterAll document (enter document tour route) rest

end

end Tour

/-- The visits of all routes. -/
def Document.visits (document : Document) : List Visit :=
  (Tour.enterAll document ⟨[], []⟩ document.routes).visits

end Routebook
