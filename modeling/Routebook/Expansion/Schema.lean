import Routebook.Expansion.Command
import Routebook.Path.Basic

/-!
# Schemas

A schema says what tags mean in the files of one directory: the commands are the
same everywhere, but references to other files start from the directory.

Schemas are built once for each directory.  Directories with the same components
share a schema, which keeps the directory as it was written first; having no
directory is different from having the empty one.
-/

namespace Routebook

/-- What tags mean in the files of a directory. -/
structure Schema where
  directory : Option Path
deriving DecidableEq, Repr, Inhabited

namespace Schema

/-- The command of a tag. -/
def command? (_schema : Schema) (tag : String) : Option Command :=
  Command.ofName? tag

/-- Whether the schema is the one for a directory. -/
def servesFor (schema : Schema) (directory : Option Path) : Bool :=
  match schema.directory, directory with
  | none, none => true
  | some a, some b => a.same b
  | _, _ => false

/-- A character inside a quoted text of a description.  Quotes of both sorts and
control characters are escaped. -/
def describeChar (c : Char) : List Char :=
  if c = '\x22' ∨ c = '\x27' ∨ c = '\x5c' then ['\x5c', c]
  else if c = '\n' then ['\x5c', 'n']
  else if c = '\r' then ['\x5c', 'r']
  else if c = '\t' then ['\x5c', 't']
  else if c = '\x00' then ['\x5c', '0']
  else if c < ' ' ∨ ('\x7f' ≤ c ∧ c < '\u00a0') then
    ['\x5c', 'u', '{'] ++ Nat.toDigits 16 c.toNat ++ ['}']
  else [c]

/-- A text in double quotes. -/
def describeText (text : String) : String :=
  .ofList ('\x22' :: (text.toList.flatMap describeChar ++ ['\x22']))

/-- A description of the schema for diagnostics. -/
def describe (schema : Schema) : String :=
  let directory :=
    match schema.directory with
    | none => "None"
    | some path => "Some(" ++ describeText path.text ++ ")"
  let tags := ", ".intercalate (Command.all.map fun command => describeText command.name)
  "TagSchema \x7b base_dir: " ++ directory ++ ", tags: [" ++ tags ++ "] \x7d"

end Schema

/-- The schemas built so far, in order. -/
structure Schemas where
  built : List Schema := []
deriving Repr, Inhabited

namespace Schemas

/-- The number of schemas. -/
def size (schemas : Schemas) : Nat :=
  schemas.built.length

/-- The schema for a directory, built if it is not there. -/
def obtain (schemas : Schemas) (directory : Option Path) : Schema × Schemas :=
  match schemas.built.find? fun schema => schema.servesFor directory with
  | some schema => (schema, schemas)
  | none => (⟨directory⟩, ⟨schemas.built ++ [⟨directory⟩]⟩)

/-- The schema that is obtained is one for the directory. -/
theorem servesFor_obtain (schemas : Schemas) (directory : Option Path) :
    (schemas.obtain directory).1.servesFor directory := by
  rw [obtain]
  split
  · rename_i schema hfind
    simpa using List.find?_some hfind
  · cases directory with
    | none => rfl
    | some path => simp [Schema.servesFor, Path.same]

end Schemas

end Routebook
