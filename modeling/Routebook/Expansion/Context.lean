import Routebook.Expansion.Inclusions
import Routebook.Expansion.Schema
import Routebook.Fragment.Registry

/-!
# The state of an expansion

An expansion shares one context from its start to its end, and may go on in a
context that another expansion has left.  A failure leaves the context as it was
when the failure came up.

The journal records which files were asked for and read and which mappings used
traits.  Nothing reads it during an expansion.
-/

namespace Routebook

/-- A step of an expansion that the journal records. -/
inductive Event
  /-- A reference to a file was met. -/
  | requested (location : Location)
  /-- A file was read, or could not be read. -/
  | opened (location : Location) (contents : Except ReadFault String)
  /-- A reference was resolved: to a value, to nothing, or not at all. -/
  | resolved (location : Location) (outcome : Except Error (Option Value))
  /-- A mapping used traits. -/
  | used (mapping : Mapping)

/-- What an expansion knows. -/
structure Context where
  /-- The directory that references in the root document start from. -/
  configDir : Option Path := none
  /-- What handler methods start with. -/
  methodPrefix : Option String := none
  registry : Registry := {}
  inclusions : Inclusions := {}
  schemas : Schemas := {}
  /-- The steps so far, last one first. -/
  journal : List Event := []
deriving Inhabited

/-- A step of an expansion. -/
abbrev Expansion := ExceptT Error (StateM Context)

namespace Expansion

/-- Carry out a step from a context. -/
def runFrom {α : Type} (step : Expansion α) (context : Context) : Except Error α × Context :=
  (ExceptT.run step).run context

/-- Take over a result that needs no context. -/
def ofExcept {α : Type} (result : Except Error α) : Expansion α :=
  fun context => (result, context)

/-- Add to the journal. -/
def record (event : Event) : Expansion Unit :=
  modify fun context => { context with journal := event :: context.journal }

/-- Change what is remembered about the included files. -/
def remember (change : Inclusions → Inclusions) : Expansion Unit :=
  modify fun context => { context with inclusions := change context.inclusions }

/-- The schema for a directory. -/
def obtainSchema (directory : Option Path) : Expansion Schema :=
  modifyGet fun context =>
    let (schema, schemas) := context.schemas.obtain directory
    (schema, { context with schemas })

/-- Define a trait. -/
def define (body : Mapping) : Expansion Unit := do
  let context ← get
  match context.registry.define body with
  | .ok (_, registry) => set { context with registry }
  | .error fault => throw (.tag fault)

/-! ## What steps do when they are carried out -/

section Running

variable {α β : Type}

@[simp] theorem runFrom_pure (result : α) (context : Context) :
    runFrom (pure result : Expansion α) context = (.ok result, context) := rfl

@[simp] theorem runFrom_throw (error : Error) (context : Context) :
    runFrom (throw error : Expansion α) context = (.error error, context) := rfl

/-- A failure ends a sequence of steps and leaves the context as it is. -/
theorem runFrom_bind (step : Expansion α) (next : α → Expansion β) (context : Context) :
    runFrom (step >>= next) context =
      match runFrom step context with
      | (.ok result, context) => runFrom (next result) context
      | (.error error, context) => (.error error, context) := by
  rcases h : runFrom step context with ⟨_ | _, rest⟩
  all_goals
    rw [runFrom] at h ⊢
    rw [ExceptT.run_bind, StateT.run_bind, h]
    rfl

/-- A sequence of steps succeeds only if each step does. -/
theorem of_runFrom_bind_isOk {step : Expansion α} {next : α → Expansion β} {context : Context}
    (h : (runFrom (step >>= next) context).1.isOk) :
    ∃ result after, runFrom step context = (.ok result, after) ∧
      (runFrom (next result) after).1.isOk := by
  rw [runFrom_bind] at h
  rcases hrun : runFrom step context with ⟨_ | result, after⟩
  · rw [hrun] at h
    cases h
  · rw [hrun] at h
    exact ⟨result, after, rfl, h⟩

theorem runFrom_bind_eq_ok {step : Expansion α} {next : α → Expansion β} {context last : Context}
    {result : β} (h : runFrom (step >>= next) context = (.ok result, last)) :
    ∃ first after, runFrom step context = (.ok first, after) ∧
      runFrom (next first) after = (.ok result, last) := by
  rw [runFrom_bind] at h
  rcases hrun : runFrom step context with ⟨_ | first, after⟩
  · rw [hrun] at h
    cases h
  · rw [hrun] at h
    exact ⟨first, after, rfl, h⟩

@[simp] theorem runFrom_get (context : Context) :
    runFrom (get : Expansion Context) context = (.ok context, context) := rfl

@[simp] theorem runFrom_ofExcept (result : Except Error α) (context : Context) :
    runFrom (ofExcept result) context = (result, context) := rfl

@[simp] theorem runFrom_record (event : Event) (context : Context) :
    runFrom (record event) context =
      (.ok (), { context with journal := event :: context.journal }) := rfl

@[simp] theorem runFrom_remember (change : Inclusions → Inclusions) (context : Context) :
    runFrom (remember change) context =
      (.ok (), { context with inclusions := change context.inclusions }) := rfl

@[simp] theorem runFrom_obtainSchema (directory : Option Path) (context : Context) :
    runFrom (obtainSchema directory) context =
      (.ok (context.schemas.obtain directory).1,
        { context with schemas := (context.schemas.obtain directory).2 }) := rfl

theorem runFrom_define (body : Mapping) (context : Context) :
    runFrom (define body) context =
      match context.registry.define body with
      | .ok (_, registry) => (.ok (), { context with registry })
      | .error fault => (.error (.tag fault), context) := by
  rw [define, runFrom_bind, runFrom_get]
  dsimp only
  split <;> rfl

end Running

end Expansion

end Routebook
