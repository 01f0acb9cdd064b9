import Routebook.Yaml.Line

/-!
# Folding of line breaks

Where a plain or quoted text goes over a line break, a single break becomes a
space.  Further empty lines become line feeds, one each, and a line or
paragraph separator is kept.
-/

namespace Routebook.Yaml

/-- The breaks between two pieces of a text: the first, unless it was escaped,
and those of the empty lines after it. -/
structure Fold where
  first : Option Char
  more : List Char

namespace Fold

/-- One more empty line. -/
def push (fold : Fold) (lineBreak : Char) : Fold :=
  { fold with more := fold.more ++ [lineBreak] }

/-- What stands between the pieces. -/
def text : Fold → List Char
  | ⟨some '\n', []⟩ => [' ']
  | ⟨some '\n', more⟩ => more
  | ⟨some lineBreak, more⟩ => lineBreak :: more
  | ⟨none, more⟩ => more

end Fold

end Routebook.Yaml
