import Routebook.Proofs.Compile.Names

/-!
# Plain data is compiled as it is

Expansion has nothing to do in a value without tags: it takes the value apart and
puts it together again as it was, whatever the keys are, and leaves the context
alone.  So a document without tags is built from its root as it is written.  All
that compiling it leaves behind is the schema that the root was entered with.

A data tree has no tags, whatever its members are called.
-/

namespace Routebook

/-- The context in which the root of a document has been entered, and nothing has
happened yet. -/
def Options.entered (options : Options) (directory : Option Path) : Context :=
  { options.start directory with schemas := ⟨[⟨(options.start directory).configDir⟩]⟩ }

/-! ## Values without tags -/

section Walks

variable {resolver : Resolver} {schema : Schema} {context : Context}

mutual

/-- A value without tags is expanded to itself. -/
theorem runFrom_expand_of_plain : ∀ {value : Value}, value.Plain →
    (expand resolver schema value).runFrom context = (.ok (some value), context)
  | .tagged tag value, hplain => (Value.madeOf_tagged.1 hplain).1.elim
  | .mapping entries, hplain => by
    have hentries := runFrom_expandEntries_of_plain (Value.madeOf_mapping.1 hplain)
    rw [expand, Expansion.runFrom_bind, hentries]
    rfl
  | .sequence items, hplain => by
    have hitems := runFrom_expandItems_of_plain (Value.madeOf_sequence.1 hplain)
    rw [expand, Expansion.runFrom_bind, hitems]
    rfl
  | .null, _ | .bool _, _ | .number _, _ | .string _, _ => by
    simp only [expand]
    rfl

theorem runFrom_expandEntries_of_plain : ∀ {entries : Mapping},
    Mapping.MadeOf Value.Untagged entries →
      (expandEntries resolver schema entries).runFrom context = (.ok entries, context)
  | [], _ => by
    rw [expandEntries]
    rfl
  | (key, value) :: rest, hplain => by
    obtain ⟨-, hvalue, hrest⟩ := Mapping.madeOf_cons.1 hplain
    have hfirst := runFrom_expand_of_plain hvalue
    have hothers := runFrom_expandEntries_of_plain hrest
    rw [expandEntries, Expansion.runFrom_bind, hfirst]
    dsimp only
    rw [Expansion.runFrom_bind, hothers]
    rfl

theorem runFrom_expandItems_of_plain : ∀ {items : List Value},
    (∀ item ∈ items, item.Plain) →
      (expandItems resolver schema items).runFrom context = (.ok items, context)
  | [], _ => by
    rw [expandItems]
    rfl
  | item :: rest, hplain => by
    obtain ⟨hitem, hrest⟩ := List.forall_mem_cons.1 hplain
    have hfirst := runFrom_expand_of_plain hitem
    have hothers := runFrom_expandItems_of_plain hrest
    rw [expandItems, Expansion.runFrom_bind, hfirst]
    dsimp only
    rw [Expansion.runFrom_bind, hothers]
    rfl

end

end Walks

/-! ## Data trees -/

namespace Json

mutual

theorem plain_toValue : ∀ tree : Json, tree.toValue.Plain
  | .null | .bool _ | .number _ | .string _ => Value.madeOf_of_parts_eq_nil rfl
  | .array items => Value.madeOf_sequence.2 (plain_toValues items)
  | .object members => Value.madeOf_mapping.2 (plain_toEntries members)

theorem plain_toValues : ∀ items : List Json, ∀ value ∈ toValues items, value.Plain
  | [] => List.forall_mem_nil _
  | item :: rest => List.forall_mem_cons.2 ⟨plain_toValue item, plain_toValues rest⟩

theorem plain_toEntries : ∀ members : List (String × Json),
    Mapping.MadeOf Value.Untagged (toEntries members)
  | [] => Mapping.madeOf_nil
  | (_, json) :: rest =>
    Mapping.madeOf_cons.2 ⟨trivial, plain_toValue json, plain_toEntries rest⟩

end

end Json

/-! ## Documents -/

/-- The root of a document is expanded with the schema of the configured directory,
the first one to be built. -/
theorem runFrom_expandRoot_start {bundle : Bundle} {options : Options} {directory : Option Path}
    {root : Value} {entries : Mapping} {after : Context} :
    (expandRoot bundle root).runFrom (options.start directory) = (.ok entries, after) ↔
      ∃ value, (expand (resolve bundle) ⟨(options.start directory).configDir⟩ root).runFrom
          (options.entered directory) = (.ok value, after) ∧
        (value = some (.mapping entries) ∨ value.getD .null = .null ∧ entries = []) :=
  runFrom_expandRoot_eq_ok

/-- What has been expanded is all that a document is built from. -/
theorem compile_of_expandRoot {source : Source} {options : Options} {bundle : Bundle}
    {root : Value} {directory : Option Path} {entries : Mapping} {after : Context}
    (hload : source.load bundle = .ok (root, directory))
    (hrun : (expandRoot bundle root).runFrom (options.start directory) = (.ok entries, after)) :
    compile source options bundle = (Document.build entries after).mapError .shape := by
  rw [Options.start] at hrun
  rw [compile, hload]
  dsimp only [bind, Except.bind]
  rw [hrun]

/-- Whether compiling a source is building the document from the given entries, after
an expansion that has gathered nothing but the schema for the root. -/
structure Source.TakenAsIs (source : Source) (options : Options) (bundle : Bundle)
    (entries : Mapping) (directory : Option Path) : Prop where
  load_eq : source.load bundle = .ok (.mapping entries, directory)
  expandRoot_eq : (expandRoot bundle (.mapping entries)).runFrom (options.start directory) =
    (.ok entries, options.entered directory)
  compile_eq : compile source options bundle =
    (Document.build entries (options.entered directory)).mapError .shape

theorem Source.takenAsIs_of_plain {source : Source} {bundle : Bundle} {entries : Mapping}
    {directory : Option Path} (hload : source.load bundle = .ok (.mapping entries, directory))
    (hplain : Value.Plain (.mapping entries)) (options : Options) :
    source.TakenAsIs options bundle entries directory := by
  have hrun := runFrom_expandRoot_start.2
    ⟨_, @runFrom_expand_of_plain (resolve bundle) _ (options.entered directory) _ hplain, .inl rfl⟩
  exact ⟨hload, hrun, compile_of_expandRoot hload hrun⟩

/-- A source without tags is compiled as it is, with all options and files: no file is
read, no trait defined, nothing included, and one schema built.  Every data tree is
such a source.  On its own, too, a value without tags is expanded to itself, and the
context stays as it is. -/
theorem compile_plain (options : Options) (bundle : Bundle) :
    (∀ (source : Source) (entries : Mapping) (directory : Option Path),
      source.load bundle = .ok (.mapping entries, directory) → Value.Plain (.mapping entries) →
        source.TakenAsIs options bundle entries directory) ∧
    (∀ members : List (String × Json), Source.TakenAsIs (.json (.object members)) options bundle
      (Json.toEntries members) none) ∧
    (∀ directory, (options.entered directory).journal = [] ∧
      (options.entered directory).registry.size = 0 ∧
      (options.entered directory).inclusions.locations = [] ∧
      (options.entered directory).schemas.size = 1) ∧
    (∀ (resolver : Resolver) (schema : Schema) (value : Value) (context : Context), value.Plain →
      (expand resolver schema value).runFrom context = (.ok (some value), context)) := by
  refine ⟨?_, ?_, fun directory => ⟨rfl, rfl, rfl, rfl⟩, ?_⟩
  · intro source entries directory hload hplain
    exact Source.takenAsIs_of_plain hload hplain options
  · intro members
    exact Source.takenAsIs_of_plain rfl (Json.plain_toValue (.object members)) options
  · intro resolver schema value context hplain
    exact runFrom_expand_of_plain hplain

/-- A document with an option whose keys are no names, and a promoted key without a
value. -/
def oddEntries : Mapping :=
  [(.string ".seen", .mapping
      [(.tagged ⟨"use"⟩ (.string "k"), .null), (.sequence [], .sequence [])]),
    (.string "users", .mapping [(.string "GET", .null)])]

/-- The tagged key, the null and the empty sequence are still there. -/
theorem compile_plain_odd : Value.Plain (.mapping oddEntries) ∧
    ∃ document, compile (.value (.mapping oddEntries)) {} {} = .ok document ∧
      document.options = [("seen", .mapping
        [(.tagged ⟨"use"⟩ (.string "k"), .null), (.sequence [], .sequence [])])] ∧
      document.routeCount = 2 := by
  have hplain : Value.Plain (.mapping oddEntries) := by
    simp [Value.Plain, Value.madeOf_mapping, oddEntries, Mapping.madeOf_cons,
      Value.madeOf_sequence, Value.Untagged]
  obtain ⟨hasis, -⟩ := compile_plain {} {}
  have hcompile := (hasis (.value (.mapping oddEntries)) oddEntries none rfl hplain).compile_eq
  refine ⟨hplain, ?_⟩
  rw [hcompile]
  exact ⟨_, rfl, rfl, rfl⟩

end Routebook
