import Routebook.Proofs.Expansion.Journal
import Routebook.Proofs.Expansion.Recursion
import Routebook.Proofs.Fragment.Parts

/-!
# What expansion makes its values of

A key of an expanded value has been written in the value that was expanded or in
a file that was read on the way; or it is the end of a path of an applied trait;
or a command has set it.  Traits and values of reusable files that an expansion
finds in its context are made of what earlier expansions were made of.

`makes_expand` states this for any condition on parts, so that it tells where keys
come from and which tags can be left.  It holds of the contexts that failures
leave as well.
-/

namespace Routebook

/-- The keys that a command sets in the mapping that it leaves. -/
def Command.stamps : Command → List String
  | .includeFile => [Keyword.virtualField, Keyword.noPathField]
  | .includePath | .group => [Keyword.virtualField]
  | .controller => [Keyword.controllerMarker]
  | .method => [Keyword.methodMarker]
  | .define | .use => []

/-- The command that takes in a file, with or without its path segment. -/
def Command.inclusion (pathless : Bool) : Command :=
  if pathless then .includeFile else .includePath

/-- Whether a condition allows what expansion makes of a part: a key itself, and
the keys that the command of a tag sets. -/
def Admitted (allowed : Part → Prop) : Part → Prop
  | .key key => allowed (.key key)
  | .tag tag => ∀ command, Command.ofName? tag.bareName = some command →
      ∀ stamp ∈ command.stamps, allowed (.key (.string stamp))

/-! ## The traits that are applied -/

mutual

/-- Whether a fragment is applied when a value is expanded from a context. -/
inductive Applied (bundle : Bundle) (fragment : Mapping) : Schema → Value → Context → Prop
  | here {schema : Schema} {tag : Tag} {operand : Value} {context after : Context}
      {value : Option Value} {body : Mapping} {name : String}
      (hcommand : schema.command? tag.bareName = some .use)
      (hoperand : (expand (resolve bundle) schema operand).runFrom context = (.ok value, after))
      (hbody : Command.use.accepts.accept Command.use.name (value.getD .null) = .ok (.mapping body))
      (hlisted : name ∈ Fragment.listed body) (hget : after.registry.get? name = some fragment) :
    Applied bundle fragment schema (.tagged tag operand) context
  | underTag {schema : Schema} {tag : Tag} {operand : Value} {context : Context}
      {command : Command} (hcommand : schema.command? tag.bareName = some command)
      (h : Applied bundle fragment schema operand context) :
    Applied bundle fragment schema (.tagged tag operand) context
  | inFile {schema : Schema} {tag : Tag} {operand : Value} {context after : Context}
      {value : Option Value} {file : String} {pathless : Bool}
      (hcommand : schema.command? tag.bareName = some (.inclusion pathless))
      (hoperand : (expand (resolve bundle) schema operand).runFrom context = (.ok value, after))
      (hfile : value = some (.string file))
      (h : AppliedInside bundle fragment ⟨schema.directory, file, pathless⟩ after) :
    Applied bundle fragment schema (.tagged tag operand) context
  | inEntry {schema : Schema} {key value : Value} {rest : Mapping} {context : Context}
      (h : Applied bundle fragment schema value context) :
    Applied bundle fragment schema (.mapping ((key, value) :: rest)) context
  | inEntries {schema : Schema} {key value : Value} {rest : Mapping} {context after : Context}
      {result : Option Value}
      (hfirst : (expand (resolve bundle) schema value).runFrom context = (.ok result, after))
      (h : Applied bundle fragment schema (.mapping rest) after) :
    Applied bundle fragment schema (.mapping ((key, value) :: rest)) context
  | inItem {schema : Schema} {item : Value} {rest : List Value} {context : Context}
      (h : Applied bundle fragment schema item context) :
    Applied bundle fragment schema (.sequence (item :: rest)) context
  | inItems {schema : Schema} {item : Value} {rest : List Value} {context after : Context}
      {result : Option Value}
      (hfirst : (expand (resolve bundle) schema item).runFrom context = (.ok result, after))
      (h : Applied bundle fragment schema (.sequence rest) after) :
    Applied bundle fragment schema (.sequence (item :: rest)) context

/-- Whether a fragment is applied inside the file that a reference reads. -/
inductive AppliedInside (bundle : Bundle) (fragment : Mapping) : Reference → Context → Prop
  | intro {reference : Reference} {context inner : Context} {text : String} {root : Value}
      {schema : Schema} (hnew : context.inclusions.progress? reference.location = none)
      (hread : bundle.read reference.location.toPath = .ok text)
      (hroot : Yaml.read text = .ok root)
      (hschema : (Expansion.obtainSchema reference.location.toPath.parent?).runFrom
        (context.enter reference.location (.ok text)) = (.ok schema, inner))
      (h : Applied bundle fragment schema root inner) :
    AppliedInside bundle fragment reference context

end

/-! ## Steps that make allowed values -/

/-- Whether the fragments and the kept values of a context are made of allowed
parts. -/
structure Context.MadeOf (allowed : Part → Prop) (context : Context) : Prop where
  registry : ∀ name fragment, context.registry.get? name = some fragment →
    Mapping.MadeOf allowed fragment
  inclusions : ∀ location value, context.inclusions.value? location = some value →
    value.MadeOf allowed

/-- Whether the files that have been read are made of parts that a condition
admits. -/
def FilesAdmitted (allowed : Part → Prop) (journal : List Event) : Prop :=
  ∀ location text root, .opened location (.ok text) ∈ journal → Yaml.read text = .ok root →
    root.MadeOf (Admitted allowed)

/-- Whether a run leaves a context made of allowed parts, and a result that
satisfies a condition if there is one, provided that the files it reads admit it. -/
def Makes (allowed : Part → Prop) {α : Type} (context : Context) (step : Expansion α)
    (P : α → Prop) : Prop :=
  FilesAdmitted allowed (step.runFrom context).2.journal →
    (step.runFrom context).2.MadeOf allowed ∧
      ∀ result, (step.runFrom context).1 = .ok result → P result

/-- Whether a value, if there is one, is made of allowed parts. -/
def OptionMadeOf (allowed : Part → Prop) (value : Option Value) : Prop :=
  ∀ inner, value = some inner → inner.MadeOf allowed

section Steps

variable {allowed : Part → Prop} {α β : Type} {context : Context}

theorem optionMadeOf_some {value : Value} (h : value.MadeOf allowed) :
    OptionMadeOf allowed (some value) := by
  rintro inner ⟨⟩
  exact h

theorem optionMadeOf_none : OptionMadeOf allowed none := by
  rintro inner ⟨⟩

theorem OptionMadeOf.getD {value : Option Value} (h : OptionMadeOf allowed value) :
    (value.getD .null).MadeOf allowed := by
  cases value with
  | none => exact Value.madeOf_null
  | some value => exact h value rfl

theorem FilesAdmitted.subset {journal journal' : List Event} (h : FilesAdmitted allowed journal)
    (hsub : journal' ⊆ journal) : FilesAdmitted allowed journal' :=
  fun location text root hopened => h location text root (hsub hopened)

theorem Traces.journal_subset {held : List Location} {step : Expansion α}
    (h : Traces held step) (context : Context) :
    context.journal ⊆ (step.runFrom context).2.journal :=
  (h context).journal_suffix.subset

theorem makes_ofExcept {P : α → Prop} {result : Except Error α} (hcontext : context.MadeOf allowed)
    (h : ∀ value, result = .ok value → P value) :
    Makes allowed context (Expansion.ofExcept result) P :=
  fun _ => ⟨hcontext, h⟩

theorem makes_pure {P : α → Prop} {result : α} (hcontext : context.MadeOf allowed)
    (h : P result) : Makes allowed context (pure result) P := by
  refine makes_ofExcept hcontext ?_
  rintro value ⟨⟩
  exact h

theorem makes_throw {P : α → Prop} (hcontext : context.MadeOf allowed) (error : Error) :
    Makes allowed context (throw error) P := by
  apply makes_ofExcept hcontext
  rintro value ⟨⟩

theorem makes_bind {step : Expansion α} {next : α → Expansion β} {P : α → Prop} {Q : β → Prop}
    (hgrows : ∀ result after, after.journal ⊆ ((next result).runFrom after).2.journal)
    (hstep : Makes allowed context step P)
    (hnext : ∀ result after, step.runFrom context = (.ok result, after) →
      after.MadeOf allowed → P result → Makes allowed after (next result) Q) :
    Makes allowed context (step >>= next) Q := by
  intro hfiles
  rw [Expansion.runFrom_bind] at hfiles ⊢
  rcases hrun : step.runFrom context with ⟨outcome, after⟩
  rw [Makes, hrun] at hstep
  rw [hrun] at hfiles
  cases outcome with
  | error error =>
    refine ⟨(hstep hfiles).1, ?_⟩
    rintro result ⟨⟩
  | ok result =>
    -- What the first step has read is still in the journal at the end.
    obtain ⟨hafter, hresult⟩ := hstep (hfiles.subset (hgrows result after))
    exact hnext result after hrun hafter (hresult result rfl) hfiles

theorem makes_define {body : Mapping} (hcontext : context.MadeOf allowed)
    (hbody : Mapping.MadeOf allowed body) :
    Makes allowed context (Expansion.define body) fun _ => True := by
  intro _
  refine ⟨?_, fun _ _ => trivial⟩
  rw [Expansion.runFrom_define, Registry.define]
  cases hname : Mapping.get? body Keyword.traitName with
  | none => exact hcontext
  | some name =>
    cases name with
    | string name =>
      refine ⟨?_, hcontext.inclusions⟩
      intro other fragment hget
      by_cases hother : other = name
      · subst hother
        obtain rfl : Mapping.erase body Keyword.traitName = fragment := by simpa using hget
        exact hbody.erase _
      · apply hcontext.registry other fragment
        rwa [← Registry.get?_insert_of_ne hother]
    | _ => exact hcontext

theorem makes_applyTraits {body : Mapping} (hcontext : context.MadeOf allowed)
    (hbody : Mapping.MadeOf allowed body)
    (htargets : ∀ name ∈ Fragment.listed body, ∀ fragment,
      context.registry.get? name = some fragment → Fragment.TargetsAllowed allowed fragment) :
    Makes allowed context (Expansion.applyTraits body) (Mapping.MadeOf allowed) := by
  intro _
  rw [Expansion.runFrom_applyTraits]
  refine ⟨⟨hcontext.registry, hcontext.inclusions⟩, ?_⟩
  intro result hresult
  refine Fragment.madeOf_apply hbody ?_ hresult
  exact fun name hname fragment hget =>
    ⟨hcontext.registry name fragment hget, htargets name hname fragment hget⟩

theorem madeOf_marked {key : String} {entries : Mapping} (hkey : allowed (.key (.string key)))
    (hentries : Mapping.MadeOf allowed entries) : OptionMadeOf allowed (marked key entries) :=
  optionMadeOf_some (Value.madeOf_mapping.2 (hentries.insert hkey (Value.madeOf_bool true)))

/-- An operand that is a mapping is made of what the value is made of. -/
theorem madeOf_accept {kind : OperandKind} {tag : String} {value : Value} {entries : Mapping}
    (hvalue : value.MadeOf allowed) (haccept : kind.accept tag value = .ok (.mapping entries)) :
    Mapping.MadeOf allowed entries := by
  rw [OperandKind.accept.eq_def] at haccept
  split at haccept
  · cases haccept
  · cases haccept
    exact Value.madeOf_mapping.1 hvalue
  · cases haccept
    exact Mapping.madeOf_nil
  · cases haccept
    exact Mapping.madeOf_nil
  · cases haccept

/-- A scalar operand is the string that the value is. -/
theorem eq_of_accept_scalar {kind : OperandKind} {tag file : String} {value : Option Value}
    (haccept : kind.accept tag (value.getD .null) = .ok (.scalar file)) :
    value = some (.string file) := by
  rw [OperandKind.accept.eq_def] at haccept
  split at haccept
  · rename_i text heq
    cases haccept
    cases value with
    | none => cases heq
    | some value => exact congrArg some heq
  · cases haccept
  · cases haccept
  · cases haccept
  · cases haccept

theorem length_unread_of_runFrom {bundle : Bundle} {schema : Schema} {value : Value}
    {context after : Context} {outcome : Except Error (Option Value)}
    (hrun : (expand (resolve bundle) schema value).runFrom context = (outcome, after)) :
    (unread bundle after.inclusions).length ≤ (unread bundle context.inclusions).length := by
  have htraces := traces_expand (traces_resolve bundle) schema value
  have hlength : (unread bundle ((expand (resolve bundle) schema value).runFrom
      context).2.inclusions).length ≤ (unread bundle context.inclusions).length :=
    length_unread_after htraces context
  rwa [hrun] at hlength

end Steps

/-! ## Walks -/

section Walks

/-- While at most `bound` files are unread, references make values of allowed parts. -/
def MakesReferences (allowed : Part → Prop) (bundle : Bundle) (bound : Nat) : Prop :=
  ∀ (reference : Reference) (context : Context),
    (unread bundle context.inclusions).length ≤ bound → context.MadeOf allowed →
    (∀ stamp ∈ (Command.inclusion reference.pathless).stamps, allowed (.key (.string stamp))) →
    (∀ fragment, AppliedInside bundle fragment reference context →
      Fragment.TargetsAllowed allowed fragment) →
    Makes allowed context (resolve bundle reference) (OptionMadeOf allowed)

variable {allowed : Part → Prop} {bundle : Bundle} {bound : Nat} {schema : Schema}

/-- What a command makes of an operand that has been expanded. -/
theorem makes_run {command : Command} {operand : Operand} {context : Context}
    (hresolve : MakesReferences allowed bundle bound)
    (hbound : (unread bundle context.inclusions).length ≤ bound)
    (hcontext : context.MadeOf allowed)
    (hstamps : ∀ stamp ∈ command.stamps, allowed (.key (.string stamp)))
    (hoperand : ∀ entries, operand = .mapping entries → Mapping.MadeOf allowed entries)
    (htargets : ∀ body, command = .use → operand = .mapping body →
      ∀ name ∈ Fragment.listed body, ∀ fragment,
        context.registry.get? name = some fragment → Fragment.TargetsAllowed allowed fragment)
    (hinside : ∀ file pathless, command = .inclusion pathless → operand = .scalar file →
      ∀ fragment, AppliedInside bundle fragment ⟨schema.directory, file, pathless⟩ context →
        Fragment.TargetsAllowed allowed fragment) :
    Makes allowed context (command.run (resolve bundle) schema operand)
      (OptionMadeOf allowed) := by
  cases operand with
  | scalar file =>
    cases command with
    | includeFile =>
      exact hresolve ⟨schema.directory, file, true⟩ context hbound hcontext hstamps
        (hinside file true rfl rfl)
    | includePath =>
      exact hresolve ⟨schema.directory, file, false⟩ context hbound hcontext hstamps
        (hinside file false rfl rfl)
    | _ => exact makes_throw hcontext _
  | mapping body =>
    have hbody := hoperand body rfl
    cases command with
    | includeFile | includePath => exact makes_throw hcontext _
    | define =>
      refine makes_bind (fun _ _ => List.Subset.refl _)
        (makes_define hcontext hbody) ?_
      exact fun _ _ _ hafter _ => makes_pure hafter optionMadeOf_none
    | use =>
      refine makes_bind (fun _ _ => List.Subset.refl _)
        (makes_applyTraits hcontext hbody (htargets body rfl rfl)) ?_
      intro applied _ _ hafter happlied
      exact makes_pure hafter (optionMadeOf_some (Value.madeOf_mapping.2 happlied))
    | controller | method | group =>
      exact makes_pure hcontext (madeOf_marked (hstamps _ (by simp [Command.stamps])) hbody)

mutual

theorem makes_expand_of_resolve (hresolve : MakesReferences allowed bundle bound) :
    ∀ (value : Value) (context : Context),
      (unread bundle context.inclusions).length ≤ bound → context.MadeOf allowed →
      value.MadeOf (Admitted allowed) →
      (∀ fragment, Applied bundle fragment schema value context →
        Fragment.TargetsAllowed allowed fragment) →
      Makes allowed context (expand (resolve bundle) schema value) (OptionMadeOf allowed)
  | .tagged tag operand, context => by
    intro hbound hcontext hvalue happlied
    obtain ⟨htag, hoperand⟩ := Value.madeOf_tagged.1 hvalue
    rw [expand]
    cases hcommand : schema.command? tag.bareName with
    | none => exact makes_throw hcontext _
    | some command =>
      have hinner := makes_expand_of_resolve hresolve operand context hbound hcontext hoperand
        fun fragment h => happlied fragment (.underTag hcommand h)
      refine makes_bind ?_ hinner ?_
      · intro result after
        dsimp only
        split
        · exact (traces_run (traces_resolve bundle) schema command _).journal_subset after
        · exact List.Subset.refl _
      intro result after hrun hafter hresult
      dsimp only
      split
      · rename_i taken haccept
        refine makes_run hresolve (Nat.le_trans (length_unread_of_runFrom hrun) hbound)
          hafter (htag command hcommand) ?_ ?_ ?_
        · rintro entries rfl
          exact madeOf_accept hresult.getD haccept
        · rintro body rfl rfl name hname fragment hget
          exact happlied fragment (.here hcommand hrun haccept hname hget)
        · rintro file pathless rfl rfl fragment hinside
          exact happlied fragment (.inFile hcommand hrun (eq_of_accept_scalar haccept) hinside)
      · exact makes_throw hafter _
  | .mapping entries, context => by
    intro hbound hcontext hvalue happlied
    rw [expand]
    have hentries := makes_expandEntries_of_resolve hresolve entries context hbound hcontext
      (Value.madeOf_mapping.1 hvalue) happlied
    refine makes_bind (fun _ _ => List.Subset.refl _) hentries ?_
    intro expanded after _ hafter hexpanded
    exact makes_pure hafter (optionMadeOf_some (Value.madeOf_mapping.2 hexpanded))
  | .sequence items, context => by
    intro hbound hcontext hvalue happlied
    rw [expand]
    have hitems := makes_expandItems_of_resolve hresolve items context hbound hcontext
      (Value.madeOf_sequence.1 hvalue) happlied
    refine makes_bind (fun _ _ => List.Subset.refl _) hitems ?_
    intro expanded after _ hafter hexpanded
    exact makes_pure hafter (optionMadeOf_some (Value.madeOf_sequence.2 hexpanded))
  | .null, context | .bool _, context | .number _, context | .string _, context => by
    intro _ hcontext _ _
    simp only [expand]
    exact makes_pure hcontext (optionMadeOf_some (Value.madeOf_of_parts_eq_nil rfl))

theorem makes_expandEntries_of_resolve (hresolve : MakesReferences allowed bundle bound) :
    ∀ (entries : Mapping) (context : Context),
      (unread bundle context.inclusions).length ≤ bound → context.MadeOf allowed →
      Mapping.MadeOf (Admitted allowed) entries →
      (∀ fragment, Applied bundle fragment schema (.mapping entries) context →
        Fragment.TargetsAllowed allowed fragment) →
      Makes allowed context (expandEntries (resolve bundle) schema entries) (Mapping.MadeOf allowed)
  | [], context => by
    intro _ hcontext _ _
    rw [expandEntries]
    exact makes_pure hcontext Mapping.madeOf_nil
  | (key, value) :: rest, context => by
    intro hbound hcontext hentries happlied
    obtain ⟨hkey, hvalue, hrest⟩ := Mapping.madeOf_cons.1 hentries
    rw [expandEntries]
    have hfirst := makes_expand_of_resolve hresolve value context hbound hcontext hvalue
      fun fragment h => happlied fragment (.inEntry h)
    refine makes_bind ?_ hfirst ?_
    · have htraces := traces_expandEntries (traces_resolve bundle) schema rest
      exact fun _ => (traces_bind htraces fun _ => traces_of_stage_eq fun _ => rfl).journal_subset
    intro result after hrun hafter hresult
    have hothers := makes_expandEntries_of_resolve hresolve rest after
      (Nat.le_trans (length_unread_of_runFrom hrun) hbound) hafter hrest
      fun fragment h => happlied fragment (.inEntries hrun h)
    refine makes_bind (fun _ _ => List.Subset.refl _) hothers ?_
    intro others last _ hlast hmade
    refine makes_pure hlast (Mapping.MadeOf.append ?_ hmade)
    cases result with
    | none => exact Mapping.madeOf_nil
    | some expanded => exact Mapping.madeOf_cons.2 ⟨hkey, hresult expanded rfl, Mapping.madeOf_nil⟩

theorem makes_expandItems_of_resolve (hresolve : MakesReferences allowed bundle bound) :
    ∀ (items : List Value) (context : Context),
      (unread bundle context.inclusions).length ≤ bound → context.MadeOf allowed →
      (∀ item ∈ items, item.MadeOf (Admitted allowed)) →
      (∀ fragment, Applied bundle fragment schema (.sequence items) context →
        Fragment.TargetsAllowed allowed fragment) →
      Makes allowed context (expandItems (resolve bundle) schema items)
        fun expanded => ∀ item ∈ expanded, item.MadeOf allowed
  | [], context => by
    intro _ hcontext _ _
    rw [expandItems]
    exact makes_pure hcontext (by simp)
  | item :: rest, context => by
    intro hbound hcontext hitems happlied
    obtain ⟨hitem, hrest⟩ := List.forall_mem_cons.1 hitems
    rw [expandItems]
    have hfirst := makes_expand_of_resolve hresolve item context hbound hcontext hitem
      fun fragment h => happlied fragment (.inItem h)
    refine makes_bind ?_ hfirst ?_
    · have htraces := traces_expandItems (traces_resolve bundle) schema rest
      exact fun _ => (traces_bind htraces fun _ => traces_of_stage_eq fun _ => rfl).journal_subset
    intro result after hrun hafter hresult
    have hothers := makes_expandItems_of_resolve hresolve rest after
      (Nat.le_trans (length_unread_of_runFrom hrun) hbound) hafter hrest
      fun fragment h => happlied fragment (.inItems hrun h)
    refine makes_bind (fun _ _ => List.Subset.refl _) hothers ?_
    intro others last _ hlast hmade
    refine makes_pure hlast (List.forall_mem_append.2 ⟨?_, hmade⟩)
    intro inner hinner
    exact hresult inner (Option.mem_toList.1 hinner)

end

end Walks

/-! ## Inclusions -/

section Inclusions

variable {allowed : Part → Prop} {context : Context}

theorem makes_readText {location : Location} {text : String} (hcontext : context.MadeOf allowed)
    (hopened : .opened location (.ok text) ∈ context.journal) :
    Makes allowed context (readText text) fun root =>
      Yaml.read text = .ok root ∧ root.MadeOf (Admitted allowed) := by
  intro hfiles
  refine ⟨hcontext, ?_⟩
  intro root hrun
  have hread : Yaml.read text = .ok root := Outcome.mapError_eq_ok.1 hrun
  exact ⟨hread, hfiles location text root hopened hread⟩

theorem makes_obtainSchema (hcontext : context.MadeOf allowed) (directory : Option Path) :
    Makes allowed context (Expansion.obtainSchema directory) fun _ => True :=
  fun _ => ⟨⟨hcontext.registry, hcontext.inclusions⟩, fun _ _ => trivial⟩

theorem Context.MadeOf.enter (hcontext : context.MadeOf allowed) (location : Location)
    (contents : Except ReadFault String) : (context.enter location contents).MadeOf allowed :=
  ⟨hcontext.registry, hcontext.inclusions⟩

theorem madeOf_withoutMark {value : Value} (h : value.MadeOf allowed) :
    (withoutMark value).MadeOf allowed := by
  cases value with
  | mapping entries => exact Value.madeOf_mapping.2 ((Value.madeOf_mapping.1 h).erase _)
  | _ => exact h

theorem madeOf_withDefaults {pathless : Bool} {value : Value} (h : value.MadeOf allowed)
    (hstamps : ∀ stamp ∈ (Command.inclusion pathless).stamps, allowed (.key (.string stamp))) :
    (withDefaults pathless value).MadeOf allowed := by
  cases value with
  | mapping entries =>
    have hvirtual : allowed (.key (.string Keyword.virtualField)) := by
      apply hstamps
      cases pathless <;> simp [Command.inclusion, Command.stamps]
    have hgrouped : Mapping.MadeOf allowed
        (Mapping.setDefault Keyword.virtualField (.bool true) entries) :=
      (Value.madeOf_mapping.1 h).setDefault hvirtual (Value.madeOf_bool true)
    cases pathless with
    | false => exact Value.madeOf_mapping.2 hgrouped
    | true =>
      have hnoPath := hstamps Keyword.noPathField (by simp [Command.inclusion, Command.stamps])
      exact Value.madeOf_mapping.2 (hgrouped.setDefault hnoPath (Value.madeOf_bool true))
  | _ => exact h

theorem makes_settle {reference : Reference} {value : Option Value}
    (hcontext : context.MadeOf allowed) (hvalue : OptionMadeOf allowed value)
    (hstamps : ∀ stamp ∈ (Command.inclusion reference.pathless).stamps,
      allowed (.key (.string stamp))) :
    Makes allowed context (settle reference value) (OptionMadeOf allowed) := by
  intro _
  cases value with
  | none =>
    refine ⟨⟨hcontext.registry, hcontext.inclusions⟩, ?_⟩
    rintro result ⟨⟩
    exact optionMadeOf_none
  | some value =>
    have hmade := hvalue value rfl
    by_cases hreusable : isReusable value
    · rw [runFrom_settle_of_reusable reference hreusable]
      refine ⟨⟨hcontext.registry, ?_⟩, ?_⟩
      · intro location kept hkept
        by_cases hlocation : location = reference.location
        · subst hlocation
          obtain rfl : withoutMark value = kept := by simpa using hkept
          exact madeOf_withoutMark hmade
        · apply hcontext.inclusions location kept
          rwa [(Inclusions.agreeAt_retain hlocation context.inclusions (withoutMark value)).2]
      · rintro result ⟨⟩
        exact optionMadeOf_some (madeOf_withoutMark hmade)
    · rw [runFrom_settle_of_once reference hreusable]
      refine ⟨⟨hcontext.registry, hcontext.inclusions⟩, ?_⟩
      rintro result ⟨⟩
      exact optionMadeOf_some (madeOf_withDefaults hmade hstamps)

/-- Expanding the text of a file makes a value of allowed parts if the references
inside it do. -/
theorem makes_expandText {bundle : Bundle} {location : Location} {text : String}
    (hresolve : MakesReferences allowed bundle (unread bundle context.inclusions).length)
    (hcontext : context.MadeOf allowed)
    (hopened : .opened location (.ok text) ∈ context.journal)
    (happlied : ∀ fragment root schema inner, Yaml.read text = .ok root →
      (Expansion.obtainSchema location.toPath.parent?).runFrom context = (.ok schema, inner) →
      Applied bundle fragment schema root inner → Fragment.TargetsAllowed allowed fragment) :
    Makes allowed context (expandText (resolve bundle) location text) (OptionMadeOf allowed) := by
  have hexpand := fun schema root => traces_expand (traces_resolve bundle) schema root
  have hobtain := fun root => traces_bind
    (traces_enterable.obtainSchema location.toPath.parent?) fun schema => hexpand schema root
  refine makes_bind (fun root => (hobtain root).journal_subset)
    (makes_readText hcontext hopened) ?_
  intro root after hrun hafter ⟨hroot, hadmitted⟩
  obtain rfl : context = after := congrArg Prod.snd hrun
  refine makes_bind (fun schema => (hexpand schema root).journal_subset)
    (makes_obtainSchema hafter location.toPath.parent?) ?_
  intro schema inner hschema hinner _
  have hinclusions : inner.inclusions = context.inclusions := by
    cases hschema
    rfl
  refine makes_expand_of_resolve hresolve root inner ?_ hinner hadmitted ?_
  · exact Nat.le_of_eq (by rw [hinclusions])
  · exact fun fragment h => happlied fragment root schema inner hroot hschema h

/-- Resolving a reference makes values of allowed parts. -/
theorem makes_resolve {bundle : Bundle} (reference : Reference) (context : Context)
    (hcontext : context.MadeOf allowed)
    (hstamps : ∀ stamp ∈ (Command.inclusion reference.pathless).stamps,
      allowed (.key (.string stamp)))
    (happlied : ∀ fragment, AppliedInside bundle fragment reference context →
      Fragment.TargetsAllowed allowed fragment) :
    Makes allowed context (resolve bundle reference) (OptionMadeOf allowed) := by
  induction hsize : (unread bundle context.inclusions).length using Nat.strongRecOn
    generalizing reference context with
  | ind size ih =>
    subst hsize
    rw [Makes, runFrom_resolve, resolveOnce]
    cases hprogress : context.inclusions.progress? reference.location with
    | some progress =>
      rw [runFrom_includeOnce_of_known hprogress]
      intro _
      refine ⟨⟨hcontext.registry, hcontext.inclusions⟩, ?_⟩
      rintro result ⟨⟩ value hvalue
      apply hcontext.inclusions reference.location
      rw [Inclusions.value?_eq_bind_progress?, hprogress]
      exact hvalue
    | none =>
      cases hcontents : bundle.read reference.location.toPath with
      | error fault =>
        rw [runFrom_includeOnce_of_unread hprogress rfl]
        intro _
        refine ⟨⟨hcontext.registry, hcontext.inclusions⟩, ?_⟩
        rintro result ⟨⟩
      | ok text =>
        rw [runFrom_includeOnce_of_read hprogress rfl]
        have hmem : reference.location ∈ bundle.locations := by
          have hread := Bundle.mem_locations_of_read hcontents
          rwa [reference.ofPath_toPath] at hread
        have hexpand : Makes allowed (context.enter reference.location (.ok text))
            (expandText (resolve bundle) reference.location text) (OptionMadeOf allowed) := by
          refine makes_expandText ?_ (hcontext.enter _ _) List.mem_cons_self ?_
          · intro other inner hbound hinner hother happliedInner
            have hless : (unread bundle (context.enter reference.location
                (.ok text)).inclusions).length < (unread bundle context.inclusions).length :=
              length_unread_enter_lt hmem hprogress
            exact ih _ (by omega) other inner hinner hother happliedInner rfl
          · exact fun fragment root schema inner hroot hschema h =>
              happlied fragment (.intro hprogress hcontents hroot hschema h)
        have hinside : Makes allowed (context.enter reference.location (.ok text))
            (expandText (resolve bundle) reference.location text >>= settle reference)
            (OptionMadeOf allowed) := by
          refine makes_bind ?_ hexpand ?_
          · exact fun value after => by
              obtain ⟨outcome, inclusions, hrun, -⟩ := ending_settle reference value after
              rw [hrun]
              exact List.Subset.refl _
          · exact fun value after _ hafter hvalue => makes_settle hafter hvalue hstamps
        intro hfiles
        obtain ⟨hafter, hresult⟩ := hinside (hfiles.subset (List.subset_cons_self _ _))
        exact ⟨⟨hafter.registry, hafter.inclusions⟩, hresult⟩

end Inclusions

/-- The keys of an expanded value, and of all that an expansion stores, come from
the value, from the files that have been read, from the ends of the paths of
applied traits, and from commands. -/
theorem makes_expand {allowed : Part → Prop} {bundle : Bundle} {schema : Schema} {value : Value}
    {context : Context} (hcontext : context.MadeOf allowed)
    (hvalue : value.MadeOf (Admitted allowed))
    (happlied : ∀ fragment, Applied bundle fragment schema value context →
      Fragment.TargetsAllowed allowed fragment) :
    Makes allowed context (expand (resolve bundle) schema value) (OptionMadeOf allowed) := by
  refine makes_expand_of_resolve ?_ value context (Nat.le_refl _) hcontext hvalue happlied
  exact fun reference inner _ => makes_resolve reference inner

end Routebook
