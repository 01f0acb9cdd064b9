import Routebook.Expansion.Context
import Routebook.Fragment.Apply

/-!
# Expanding a value

A value is walked in the order in which it is written.  The value under a tag is
expanded before the tag itself, so that what a definition stores is expanded
already.  A tag may leave nothing behind: then the entry or item that held it is
dropped, and a tag around it sees null.

How references to other files are resolved is a parameter of the walk.
-/

namespace Routebook

/-- A reference from a file of one directory to another file. -/
structure Reference where
  directory : Option Path
  file : String
  /-- Whether the root of the file has no path segment by default. -/
  pathless : Bool
deriving DecidableEq, Repr

/-- Where a reference leads. -/
def Reference.location (reference : Reference) : Location :=
  .ofReference reference.directory ⟨reference.file⟩

/-- A way to resolve references. -/
abbrev Resolver := Reference → Expansion (Option Value)

/-- A mapping with a marker set. -/
def marked (key : String) (entries : Mapping) : Option Value :=
  some (.mapping (Mapping.set key (.bool true) entries))

/-- Apply the traits that a mapping lists, as they are defined by now. -/
def Expansion.applyTraits (body : Mapping) : Expansion Mapping := do
  Expansion.record (.used body)
  let context ← get
  Expansion.ofExcept (Fragment.apply context.registry body)

theorem Expansion.runFrom_applyTraits (body : Mapping) (context : Context) :
    (Expansion.applyTraits body).runFrom context =
      (Fragment.apply context.registry body,
        { context with journal := .used body :: context.journal }) := by
  simp [Expansion.applyTraits, Expansion.runFrom_bind]

/-- What a command makes of its operand. -/
def Command.run (resolver : Resolver) (schema : Schema) (command : Command)
    (operand : Operand) : Expansion (Option Value) :=
  match command, operand with
  | .includeFile, .scalar file => resolver ⟨schema.directory, file, true⟩
  | .includePath, .scalar file => resolver ⟨schema.directory, file, false⟩
  | .define, .mapping body => do
    Expansion.define body
    return none
  | .use, .mapping body => do
    let applied ← Expansion.applyTraits body
    return some (.mapping applied)
  | .controller, .mapping entries => return marked Keyword.controllerMarker entries
  | .method, .mapping entries => return marked Keyword.methodMarker entries
  | .group, .mapping entries => return marked Keyword.virtualField entries
  | command, _ => throw (.tag (.operand command.name command.accepts))

mutual

/-- Expand a value; `none` is nothing. -/
def expand (resolver : Resolver) (schema : Schema) : Value → Expansion (Option Value)
  | .tagged tag value =>
    match schema.command? tag.bareName with
    | none => throw (.unknownTag tag.text)
    | some command => do
      let value := (← expand resolver schema value).getD .null
      match command.accepts.accept command.name value with
      | .ok operand => command.run resolver schema operand
      | .error fault => throw (.tag fault)
  | .mapping entries => do
    let entries ← expandEntries resolver schema entries
    return some (.mapping entries)
  | .sequence items => do
    let items ← expandItems resolver schema items
    return some (.sequence items)
  | scalar => return some scalar

/-- Expand the values of a mapping, dropping the entries that come to nothing. -/
def expandEntries (resolver : Resolver) (schema : Schema) : Mapping → Expansion Mapping
  | [] => return []
  | (key, value) :: rest => do
    let value ← expand resolver schema value
    let rest ← expandEntries resolver schema rest
    return (value.map (key, ·)).toList ++ rest

/-- Expand the items of a sequence, dropping those that come to nothing. -/
def expandItems (resolver : Resolver) (schema : Schema) : List Value → Expansion (List Value)
  | [] => return []
  | item :: rest => do
    let item ← expand resolver schema item
    let rest ← expandItems resolver schema rest
    return item.toList ++ rest

end

/-- A command for a scalar is carried out on the text under its tag. -/
theorem runFrom_expand_scalar {schema : Schema} {tag : Tag} {command : Command} {text : String}
    (hcommand : schema.command? tag.bareName = some command) (hscalar : command.accepts = .scalar)
    (resolver : Resolver) (context : Context) :
    (expand resolver schema (.tagged tag (.string text))).runFrom context =
      (command.run resolver schema (.scalar text)).runFrom context := by
  rw [expand, hcommand]
  dsimp only
  rw [Expansion.runFrom_bind, hscalar]
  simp only [expand]
  rfl

/-- Expansion adds no key to a mapping that it walks over. -/
theorem map_fst_sublist_of_expandEntries {resolver : Resolver} {schema : Schema}
    {entries result : Mapping} {context last : Context}
    (hrun : (expandEntries resolver schema entries).runFrom context = (.ok result, last)) :
    (result.map Prod.fst).Sublist (entries.map Prod.fst) := by
  induction entries generalizing result context last with
  | nil =>
    rw [expandEntries] at hrun
    cases hrun
    exact List.Sublist.refl _
  | cons entry rest ih =>
    obtain ⟨key, value⟩ := entry
    rw [expandEntries] at hrun
    obtain ⟨first, after, -, hrun⟩ := Expansion.runFrom_bind_eq_ok hrun
    obtain ⟨others, last, hothers, hrun⟩ := Expansion.runFrom_bind_eq_ok hrun
    cases hrun
    cases first with
    | none => exact (ih hothers).cons key
    | some first => exact (ih hothers).cons_cons key

end Routebook
