/-!
# Tokens

The tokens of a text.  Block collections have no brackets in the text; their
start and end are read off the indentation.  A key has a token in front of it,
also where the text shows only the colon behind it.
-/

namespace Routebook.Yaml

/-- A token of a text. -/
inductive Token
  | version (major minor : Nat)
  | handle (name : String) (expansion : List UInt8)
  | documentStart
  | documentEnd
  | streamEnd
  | blockSequenceStart
  | blockMappingStart
  | blockEnd
  | flowSequenceStart
  | flowSequenceEnd
  | flowMappingStart
  | flowMappingEnd
  | blockEntry
  | flowEntry
  | key
  | value
  | alias (name : String)
  | anchor (name : String)
  | tag (handle : String) (suffix : List UInt8)
  | scalar (text : String) (plain : Bool)
deriving Repr, DecidableEq, Inhabited

end Routebook.Yaml
