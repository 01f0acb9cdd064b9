/-!
# Why a text cannot be read

A fault is either tied to a place in the text or concerns the text as a whole.
Only the faults of the second sort have a wording that is part of the library's
output.
-/

namespace Routebook.Yaml

/-- A fault at one place of a text. -/
inductive SyntaxFault
  /-- A control character or another character that no document may hold. -/
  | character
  /-- A character that starts no token, or a token that cannot stand there. -/
  | unexpected
  /-- A directive that is malformed, repeated or of another version. -/
  | directive
  /-- An anchor or alias without a proper name. -/
  | anchorName
  /-- A malformed tag, or one with an undeclared handle. -/
  | tag
  /-- A quoted text without its closing quote, or with a wrong escape. -/
  | quotedText
  /-- A malformed header of a block text. -/
  | blockHeader
  /-- A tab where spaces have to indent. -/
  | indentation
  /-- A key without the colon that has to follow it. -/
  | missingColon
  /-- An alias of a name that no node carries. -/
  | unknownAlias
  /-- Collections nested too deeply. -/
  | nesting
  /-- A key that stands twice in one mapping. -/
  | duplicateKey
  /-- A scalar that is not of the type its tag demands, or out of range. -/
  | scalar
  /-- A node of another shape than the reader asked for. -/
  | shape
deriving DecidableEq, Repr

/-- A fault in the value of a merge key. -/
inductive MergeFault
  | scalar
  | scalarElement
  | sequenceElement
  | tagged
deriving DecidableEq, Repr

/-- A fault of a text. -/
inductive TextFault
  | malformed (fault : SyntaxFault)
  | severalDocuments
  | repetition
  | merge (fault : MergeFault)
deriving DecidableEq, Repr

/-- The wording of a merge fault. -/
def MergeFault.message : MergeFault → String
  | .scalar => "expected a mapping or list of mappings for merging, but found scalar"
  | .scalarElement => "expected a mapping for merging, but found scalar"
  | .sequenceElement => "expected a mapping for merging, but found sequence"
  | .tagged => "unexpected tagged value in merge"

/-- The wording of a fault that is tied to a place. -/
def SyntaxFault.message : SyntaxFault → String
  | .character => "control characters are not allowed"
  | .unexpected => "unexpected character or token"
  | .directive => "malformed directive"
  | .anchorName => "malformed anchor or alias"
  | .tag => "malformed tag"
  | .quotedText => "malformed quoted text"
  | .blockHeader => "malformed block text header"
  | .indentation => "a tab where indentation is expected"
  | .missingColon => "a key without a colon"
  | .unknownAlias => "unknown anchor"
  | .nesting => "collections are nested too deeply"
  | .duplicateKey => "duplicate key"
  | .scalar => "scalar of the wrong type"
  | .shape => "node of the wrong shape"

/-- The wording of a fault. -/
def TextFault.message : TextFault → String
  | .malformed fault => fault.message
  | .severalDocuments =>
    "deserializing from YAML containing more than one document is not supported"
  | .repetition => "repetition limit exceeded"
  | .merge fault => fault.message

/-- Whether the fault is tied to a place in the text. -/
def TextFault.isPlaced : TextFault → Bool
  | .malformed _ => true
  | _ => false

end Routebook.Yaml
