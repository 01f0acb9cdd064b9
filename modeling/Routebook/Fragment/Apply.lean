import Routebook.Fragment.Registry
import Routebook.Fragment.Placeholder
import Routebook.Text.Segments

/-!
# Applying fragments

A mapping lists the traits it uses.  Each trait in turn adds its default
variables and its fields where they are absent, and then writes the variables
along the paths that it declares for them.  A path that starts at a field which
the mapping had before is passed over: the mapping's own fields stay as they
are.

The list of traits and the variables are not part of the result.
-/

namespace Routebook.Fragment

/-- The names in the list of traits of a mapping. -/
def listedTraits : Value → Except TagFault (List String)
  | .string name => .ok [name]
  | .sequence items =>
    items.mapM fun item =>
      match item with
      | .string name => .ok name
      | other => .error (.traitListEntry other.kind)
  | other => .error (.traitList other.kind)

/-- The fields of a fragment that a using mapping takes over. -/
def fieldsOf (fragment : Mapping) : Mapping :=
  Mapping.erase (Mapping.erase fragment Keyword.placeholders) Keyword.bindings

/-- Add the default variables of a trait to those of the using mapping. -/
def addDefaults (user : Mapping) (defaults : Option Value) : Except TagFault Mapping :=
  match defaults, Mapping.get? user Keyword.bindings with
  | none, _ => .ok user
  | some defaults, none => .ok (user ++ [(.string Keyword.bindings, defaults)])
  | some (.mapping defaults), some (.mapping bindings) =>
    .ok (Mapping.set Keyword.bindings (.mapping (Mapping.addAbsent bindings defaults)) user)
  | some _, some (.mapping _) => .ok user
  | some _, some other => .error (.bindings other.kind)

/-- For each named field of a fragment, whether the using mapping lacks it. -/
def contributions (user fragment : Mapping) : List (String × Bool) :=
  fragment.filterMap fun entry =>
    entry.1.string?.map fun name => (name, !Mapping.hasKey user entry.1)

/-- Whether the using mapping has its own field at the start of a path.  Of two
keys with one text the later one counts. -/
def isOverridden (contributed : List (String × Bool)) (segment : String) : Bool :=
  contributed.reverse.lookup segment == some false

/-- The value of a variable. -/
def valueOf? (user : Mapping) (name : String) : Option Value := do
  let bindings ← Mapping.get? user Keyword.bindings
  Mapping.get? (← bindings.mapping?) name

/-- The paths that a trait declares for a variable. -/
def targetPaths (traitName name : String) :
    Value → Except PlaceholderFault (List String)
  | .string path => .ok [path]
  | .sequence items =>
    items.mapM fun item =>
      match item with
      | .string path => .ok path
      | _ => .error (.paths name traitName)
  | _ => .error (.paths name traitName)

/-- The declarations of a trait that are to be carried out. -/
def declarations (traitName : String) : Option Value → Except PlaceholderFault Mapping
  | none | some .null => .ok []
  | some (.mapping entries) => .ok entries
  | some other => .error (.declarations traitName other.kind)

/-- Write a variable along one of its paths. -/
def fillPath (contributed : List (String × Bool)) (value : Value) (user : Mapping)
    (path : String) : Except Error Mapping :=
  let segments := Text.segments '|' path
  if isOverridden contributed (segments.headD "") then
    .ok user
  else
    (writeAlong path value segments user).mapError .placeholder

/-- Carry out one declaration of a trait: write its variable along its paths. -/
def fillVariable (traitName : String) (contributed : List (String × Bool))
    (user : Mapping) (declaration : Value × Value) : Except Error Mapping := do
  match declaration.1.string? with
  | none => throw (.placeholder (.variableName traitName))
  | some name =>
    match valueOf? user name with
    | none => throw (.unfulfilledVariable traitName name)
    | some value =>
      let paths ← (targetPaths traitName name declaration.2).mapError .placeholder
      paths.foldlM (fillPath contributed value) user

/-- Apply one trait. -/
def applyTrait (traitName : String) (fragment user : Mapping) : Except Error Mapping := do
  let declared := Mapping.get? fragment Keyword.placeholders
  let defaults := Mapping.get? fragment Keyword.bindings
  let user ← (addDefaults user defaults).mapError .tag
  let contributed := contributions user (fieldsOf fragment)
  let user := Mapping.addAbsent user (fieldsOf fragment)
  let declared ← (declarations traitName declared).mapError .placeholder
  declared.foldlM (fillVariable traitName contributed) user

/-- Apply a trait by name. -/
def applyNamed (registry : Registry) (user : Mapping) (name : String) :
    Except Error Mapping :=
  match registry.get? name with
  | some fragment => applyTrait name fragment user
  | none => .error (.traitNotFound name)

/-- Apply the traits that a mapping lists. -/
def apply (registry : Registry) (user : Mapping) : Except Error Mapping := do
  match Mapping.get? user Keyword.traitList with
  | none => throw (.tag .traitListMissing)
  | some list =>
    let names ← (listedTraits list).mapError .tag
    let applied ← names.foldlM (applyNamed registry) (Mapping.erase user Keyword.traitList)
    return Mapping.erase applied Keyword.bindings

end Routebook.Fragment
