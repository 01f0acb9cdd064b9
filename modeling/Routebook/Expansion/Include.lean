import Routebook.Expansion.Walk
import Routebook.Files.Basic
import Routebook.Yaml.Read

/-!
# Resolving references

The first reference to a file reads and expands it; its own references start
from the directory it lies in.  Later references come to nothing, unless the
file can be included again, and so do references from inside the file to itself.

While a file is expanded it is taken out of the bundle.  No reference can miss
it there, because its inclusion has started already; and as a bundle is finite,
files cannot be nested without end.
-/

namespace Routebook

/-- Whether the file with the given expanded value can be included again. -/
def isReusable (value : Value) : Bool :=
  match value with
  | .mapping entries =>
    match Mapping.get? entries Keyword.reusable with
    | none | some .null | some (.bool false) => false
    | some _ => true
  | _ => false

/-- The value of a file without the mark that it can be included again. -/
def withoutMark (value : Value) : Value :=
  match value with
  | .mapping entries => .mapping (Mapping.erase entries Keyword.reusable)
  | value => value

/-- The value of a file that is included once: its root groups routes and, if
the reference says so, has no path segment, unless the file decides otherwise. -/
def withDefaults (pathless : Bool) (value : Value) : Value :=
  match value with
  | .mapping entries =>
    let grouped := Mapping.setDefault Keyword.virtualField (.bool true) entries
    .mapping (if pathless then Mapping.setDefault Keyword.noPathField (.bool true) grouped
      else grouped)
  | value => value

/-- Settle the inclusion of a file whose value has been expanded. -/
def settle (reference : Reference) (value : Option Value) : Expansion (Option Value) := do
  match value with
  | none =>
    Expansion.remember (·.finish reference.location)
    return none
  | some value =>
    if isReusable value then
      let value := withoutMark value
      Expansion.remember (·.retain reference.location value)
      return some value
    else
      Expansion.remember (·.finish reference.location)
      return some (withDefaults reference.pathless value)

/-- Read a text as a value. -/
def readText (text : String) : Expansion Value :=
  Expansion.ofExcept ((Yaml.read text).mapError .text)

/-- Record that a reference is being resolved, and what became of it. -/
def recorded (location : Location) (step : Expansion (Option Value)) :
    Expansion (Option Value) :=
  fun context =>
    let (outcome, context) :=
      step.runFrom { context with journal := .requested location :: context.journal }
    (outcome, { context with journal := .resolved location outcome :: context.journal })

/-- Include a file with the given contents, unless its inclusion has started
before.  The text of the file is expanded by `inside`. -/
def includeOnce (reference : Reference) (contents : Except ReadFault String)
    (inside : ∀ text, contents = .ok text → Expansion (Option Value)) :
    Expansion (Option Value) :=
  recorded reference.location do
    let context ← get
    match context.inclusions.progress? reference.location with
    | some progress => return progress.value?
    | none =>
      Expansion.remember (·.start reference.location)
      Expansion.record (.opened reference.location contents)
      match contents, inside with
      | .error fault, _ => throw (.unreadable fault)
      | .ok text, inside => settle reference (← inside text rfl)

/-- Expand the text of the file at a location. -/
def expandText (resolver : Resolver) (location : Location) (text : String) :
    Expansion (Option Value) := do
  let value ← readText text
  let schema ← Expansion.obtainSchema location.toPath.parent?
  expand resolver schema value

/-- Resolve a reference by the files of a bundle. -/
def resolve (bundle : Bundle) (reference : Reference) : Expansion (Option Value) :=
  includeOnce reference (bundle.read reference.location.toPath) fun text _found =>
    expandText (resolve (bundle.without (.ofPath reference.location.toPath)))
      reference.location text
termination_by bundle.size
decreasing_by exact Bundle.size_without_lt _found

/-- Expand a value by the files of a bundle, as one of a file in the given
directory. -/
def expandIn (bundle : Bundle) (directory : Option Path) (value : Value) :
    Expansion (Option Value) := do
  let schema ← Expansion.obtainSchema directory
  expand (resolve bundle) schema value

/-- Expand the root of a document.  An empty document is the empty mapping. -/
def expandRoot (bundle : Bundle) (root : Value) : Expansion Mapping := do
  let context ← get
  match ← expandIn bundle context.configDir root with
  | none | some .null => return []
  | some (.mapping entries) => return entries
  | some other => throw (.documentRoot other.kind)

/-! ## What an inclusion does when it is carried out -/

theorem runFrom_recorded (location : Location) (step : Expansion (Option Value))
    (context : Context) :
    (recorded location step).runFrom context =
      let inner := step.runFrom { context with journal := .requested location :: context.journal }
      (inner.1, { inner.2 with journal := .resolved location inner.1 :: inner.2.journal }) := rfl

theorem runFrom_expandText_of_read {text : String} {root : Value} (h : Yaml.read text = .ok root)
    (resolver : Resolver) (location : Location) (context : Context) :
    (expandText resolver location text).runFrom context =
      (expand resolver (context.schemas.obtain location.toPath.parent?).1 root).runFrom
        { context with schemas := (context.schemas.obtain location.toPath.parent?).2 } := by
  rw [expandText, readText, h, Expansion.runFrom_bind]
  rfl

theorem runFrom_expandText_of_malformed {text : String} {fault : Yaml.TextFault}
    (h : Yaml.read text = .error fault) (resolver : Resolver) (location : Location)
    (context : Context) :
    (expandText resolver location text).runFrom context = (.error (.text fault), context) := by
  rw [expandText, readText, h, Expansion.runFrom_bind]
  rfl

/-- A root is expanded with the schema for the directory of the context, and what
comes out has to be a mapping or null or nothing. -/
theorem runFrom_expandRoot_eq_ok {bundle : Bundle} {root : Value} {context last : Context}
    {entries : Mapping} :
    (expandRoot bundle root).runFrom context = (.ok entries, last) ↔
      ∃ value, (expand (resolve bundle) (context.schemas.obtain context.configDir).1 root).runFrom
          { context with schemas := (context.schemas.obtain context.configDir).2 } =
            (.ok value, last) ∧
        (value = some (.mapping entries) ∨ value.getD .null = .null ∧ entries = []) := by
  rw [expandRoot, Expansion.runFrom_bind, Expansion.runFrom_get]
  dsimp only
  constructor
  · intro hrun
    obtain ⟨value, after, hexpand, hrun⟩ := Expansion.runFrom_bind_eq_ok hrun
    rw [expandIn, Expansion.runFrom_bind, Expansion.runFrom_obtainSchema] at hexpand
    refine ⟨value, ?_⟩
    split at hrun
    · cases hrun
      exact ⟨hexpand, .inr ⟨rfl, rfl⟩⟩
    · cases hrun
      exact ⟨hexpand, .inr ⟨rfl, rfl⟩⟩
    · cases hrun
      exact ⟨hexpand, .inl rfl⟩
    · cases hrun
  · rintro ⟨value, hexpand, hvalue⟩
    rw [Expansion.runFrom_bind, expandIn, Expansion.runFrom_bind, Expansion.runFrom_obtainSchema]
    dsimp only
    rw [hexpand]
    rcases hvalue with rfl | ⟨hvalue, rfl⟩
    · rfl
    · cases value with
      | none => rfl
      | some value =>
        obtain rfl : value = .null := hvalue
        rfl

theorem runFrom_settle_of_reusable (reference : Reference) {value : Value}
    (h : isReusable value) (context : Context) :
    (settle reference (some value)).runFrom context =
      (.ok (some (withoutMark value)), { context with
        inclusions := context.inclusions.retain reference.location (withoutMark value) }) := by
  simp only [settle, h, if_true]
  rfl

theorem runFrom_settle_of_once (reference : Reference) {value : Value}
    (h : ¬ isReusable value) (context : Context) :
    (settle reference (some value)).runFrom context =
      (.ok (some (withDefaults reference.pathless value)), { context with
        inclusions := context.inclusions.finish reference.location }) := by
  simp only [settle, h]
  rfl

section IncludeOnce

variable {reference : Reference} {contents : Except ReadFault String}
  {inside : ∀ text, contents = .ok text → Expansion (Option Value)} {context : Context}

/-- A file whose inclusion has started is not read again. -/
theorem runFrom_includeOnce_of_known {progress : Progress}
    (hknown : context.inclusions.progress? reference.location = some progress) :
    (includeOnce reference contents inside).runFrom context =
      (.ok progress.value?, { context with
        journal := .resolved reference.location (.ok progress.value?) ::
          .requested reference.location :: context.journal }) := by
  rw [includeOnce.eq_def, runFrom_recorded, Expansion.runFrom_bind, Expansion.runFrom_get]
  simp [hknown]

/-- The context in which the expansion of a file starts. -/
def Context.enter (context : Context) (location : Location)
    (contents : Except ReadFault String) : Context :=
  { context with
    inclusions := context.inclusions.start location
    journal := .opened location contents :: .requested location :: context.journal }

theorem runFrom_includeOnce_of_unread {fault : ReadFault}
    (hnew : context.inclusions.progress? reference.location = none)
    (hcontents : contents = .error fault) :
    (includeOnce reference contents inside).runFrom context =
      let entered := context.enter reference.location contents
      (.error (.unreadable fault), { entered with
        journal := .resolved reference.location (.error (.unreadable fault)) ::
          entered.journal }) := by
  subst hcontents
  rw [includeOnce, runFrom_recorded, Expansion.runFrom_bind, Expansion.runFrom_get]
  simp [hnew, Expansion.runFrom_bind, Context.enter]

theorem runFrom_includeOnce_of_read {text : String}
    (hnew : context.inclusions.progress? reference.location = none)
    (hcontents : contents = .ok text) :
    (includeOnce reference contents inside).runFrom context =
      let after := (inside text hcontents >>= settle reference).runFrom
        (context.enter reference.location contents)
      (after.1, { after.2 with
        journal := .resolved reference.location after.1 :: after.2.journal }) := by
  subst hcontents
  rw [includeOnce, runFrom_recorded, Expansion.runFrom_bind, Expansion.runFrom_get]
  simp [hnew, Expansion.runFrom_bind, Context.enter]

end IncludeOnce

end Routebook
