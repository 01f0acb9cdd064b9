/-!
# Replacing every occurrence of a token

Occurrences are found from left to right and do not overlap.  The empty token
occurs before every character and at the end.
-/

namespace Routebook.Text

/-- Replace the occurrences of a non-empty token.  The number `skip` counts the
characters still covered by the occurrence found last. -/
def replaceChars (token replacement : List Char) : Nat → List Char → List Char
  | _, [] => []
  | skip + 1, _ :: rest => replaceChars token replacement skip rest
  | 0, c :: rest =>
    if token.isPrefixOf (c :: rest) then
      replacement ++ replaceChars token replacement (token.length - 1) rest
    else
      c :: replaceChars token replacement 0 rest

/-- Put `replacement` before every character and at the end. -/
def surround (replacement : List Char) : List Char → List Char
  | [] => replacement
  | c :: rest => replacement ++ c :: surround replacement rest

/-- Replace every occurrence of `token` in `text` by `replacement`. -/
def replaceAll (token replacement text : String) : String :=
  if token.isEmpty then
    .ofList (surround replacement.toList text.toList)
  else
    .ofList (replaceChars token.toList replacement.toList 0 text.toList)

end Routebook.Text
