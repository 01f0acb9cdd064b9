/-!
# Keys with a meaning of their own

Keys that start with a dot are options or belong to the library.  These are the
ones that the library reads or writes.
-/

namespace Routebook.Keyword

/-- Names the fragment in a definition. -/
def traitName : String := ".trait"

/-- Lists the fragments to apply. -/
def traitList : String := ".traits"

/-- Holds the values of variables. -/
def bindings : String := ".vars"

/-- Declares where a fragment takes the values of variables. -/
def placeholders : String := ".placeholders"

/-- Marks a file that may be included more than once. -/
def reusable : String := ".includePoly"

/-- Left where a route names a controller after its own key. -/
def controllerMarker : String := ".controller"

/-- Left where a route names a handler method after its own key. -/
def methodMarker : String := ".method"

/-- The field of routes that are not documented themselves. -/
def virtualField : String := "virtual"

/-- The field of routes that have no path segment. -/
def noPathField : String := "noPath"

end Routebook.Keyword
