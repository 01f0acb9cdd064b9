import Routebook.Expansion.Include

/-!
# Two walks in parallel

Two walks over one value take the same steps as long as their resolvers answer
alike.  `Walkable` lists what a relation between steps has to allow for; if it
relates the resolvers at every reference, it relates the walks.  `Enterable` adds
what happens where a file is entered.

The relation may compare the walks of two runs, or say of one run that its steps
keep something.
-/

namespace Routebook

/-- A relation between steps that all steps of a walk but the references keep. -/
structure Walkable (R : ∀ {α : Type}, Expansion α → Expansion α → Prop) : Prop where
  ofExcept : ∀ {α : Type} (result : Except Error α),
    R (Expansion.ofExcept result) (Expansion.ofExcept result)
  bind : ∀ {α β : Type} {step step' : Expansion α} {next next' : α → Expansion β},
    R step step' → (∀ result, R (next result) (next' result)) →
      R (step >>= next) (step' >>= next')
  define : ∀ body, R (Expansion.define body) (Expansion.define body)
  applyTraits : ∀ body, R (Expansion.applyTraits body) (Expansion.applyTraits body)

/-- A relation between steps that obtaining a schema keeps as well. -/
structure Enterable (R : ∀ {α : Type}, Expansion α → Expansion α → Prop) : Prop
    extends Walkable R where
  obtainSchema : ∀ directory,
    R (Expansion.obtainSchema directory) (Expansion.obtainSchema directory)

namespace Walkable

/-- The resolvers answer references from the directories of the schemas alike. -/
def AnswerAlike (R : ∀ {α : Type}, Expansion α → Expansion α → Prop)
    (resolver resolver' : Resolver) (schema schema' : Schema) : Prop :=
  ∀ file pathless, R (resolver ⟨schema.directory, file, pathless⟩)
    (resolver' ⟨schema'.directory, file, pathless⟩)

variable {R : ∀ {α : Type}, Expansion α → Expansion α → Prop}
  {resolver resolver' : Resolver} {schema schema' : Schema} (hR : Walkable R)

include hR

theorem pure {α : Type} (result : α) : R (pure result) (pure result) :=
  hR.ofExcept (.ok result)

theorem throw {α : Type} (error : Error) : R (throw error : Expansion α) (throw error) :=
  hR.ofExcept (.error error)

theorem run (hresolver : AnswerAlike R resolver resolver' schema schema')
    (command : Command) (operand : Operand) :
    R (command.run resolver schema operand) (command.run resolver' schema' operand) := by
  cases operand with
  | scalar file =>
    cases command with
    | includeFile => exact hresolver file true
    | includePath => exact hresolver file false
    | _ => exact hR.throw _
  | mapping body =>
    cases command with
    | includeFile | includePath => exact hR.throw _
    | define => exact hR.bind (hR.define body) fun _ => hR.pure none
    | use => exact hR.bind (hR.applyTraits body) fun _ => hR.pure _
    | controller | method | group => exact hR.pure _

mutual

/-- Related resolvers make related walks. -/
theorem expand (hresolver : AnswerAlike R resolver resolver' schema schema') :
    ∀ value : Value, R (expand resolver schema value) (expand resolver' schema' value)
  | .tagged tag value => by
    rw [Routebook.expand, Routebook.expand]
    -- What a tag means does not depend on the directory of its schema.
    have hcommand : schema'.command? tag.bareName = schema.command? tag.bareName := rfl
    rw [hcommand]
    cases schema.command? tag.bareName with
    | none => exact hR.throw _
    | some command =>
      refine hR.bind (expand hresolver value) fun inner => ?_
      dsimp only
      cases command.accepts.accept command.name (inner.getD .null) with
      | ok operand => exact hR.run hresolver command operand
      | error fault => exact hR.throw _
  | .mapping entries => by
    rw [Routebook.expand, Routebook.expand]
    exact hR.bind (expandEntries hresolver entries) fun entries => hR.pure _
  | .sequence items => by
    rw [Routebook.expand, Routebook.expand]
    exact hR.bind (expandItems hresolver items) fun items => hR.pure _
  | .null | .bool _ | .number _ | .string _ => by
    simp only [Routebook.expand]
    exact hR.pure _

theorem expandEntries (hresolver : AnswerAlike R resolver resolver' schema schema') :
    ∀ entries : Mapping,
      R (expandEntries resolver schema entries) (expandEntries resolver' schema' entries)
  | [] => by
    rw [Routebook.expandEntries, Routebook.expandEntries]
    exact hR.pure _
  | (key, value) :: rest => by
    rw [Routebook.expandEntries, Routebook.expandEntries]
    exact hR.bind (expand hresolver value) fun _ =>
      hR.bind (expandEntries hresolver rest) fun _ => hR.pure _

theorem expandItems (hresolver : AnswerAlike R resolver resolver' schema schema') :
    ∀ items : List Value,
      R (expandItems resolver schema items) (expandItems resolver' schema' items)
  | [] => by
    rw [Routebook.expandItems, Routebook.expandItems]
    exact hR.pure _
  | item :: rest => by
    rw [Routebook.expandItems, Routebook.expandItems]
    exact hR.bind (expand hresolver item) fun _ =>
      hR.bind (expandItems hresolver rest) fun _ => hR.pure _

end

end Walkable

section Texts

variable {R : ∀ {α : Type}, Expansion α → Expansion α → Prop} {resolver resolver' : Resolver}

/-- Related resolvers make related expansions of a text. -/
theorem Enterable.expandText (hR : Enterable R)
    (hresolver : ∀ reference, R (resolver reference) (resolver' reference))
    (location : Location) (text : String) :
    R (expandText resolver location text) (expandText resolver' location text) := by
  apply hR.bind (hR.ofExcept _)
  intro value
  apply hR.bind (hR.obtainSchema _)
  intro schema
  exact hR.expand (fun file pathless => hresolver ⟨schema.directory, file, pathless⟩) value

end Texts

end Routebook
