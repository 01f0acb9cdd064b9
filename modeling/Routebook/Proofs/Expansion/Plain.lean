import Routebook.Proofs.Expansion.Log
import Routebook.Proofs.Expansion.Material

/-!
# Expansion leaves no tag

A value is plain if no tag stands in it in value position.  The results of
expansion are plain, and so is all that it stores for later expansions, whether
it succeeds or fails.  If it succeeds, it knew every tag of the value and of the
files that it read.

What is stored has to be plain at the start; an empty context is.
-/

namespace Routebook

/-- Whether the fragments and the kept values of a context are plain. -/
def Context.Plain (context : Context) : Prop :=
  context.MadeOf Value.Untagged

/-- Whether a part is no tag without a meaning. -/
def Part.Known : Part → Prop
  | .tag label => ∃ command, Command.ofName? label.bareName = some command
  | .key _ => True

/-- Whether the files that have been read can be read as values without unknown
tags. -/
def Vetted (events : List Event) : Prop :=
  ∀ location contents, .opened location contents ∈ events →
    ∃ text root, contents = .ok text ∧ Yaml.read text = .ok root ∧ root.MadeOf Part.Known

/-! ## Unknown tags do not pass -/

section Walks

variable {resolver : Resolver} {schema : Schema}

mutual

/-- A value that is expanded with success has no unknown tags. -/
theorem known_of_expand_isOk : ∀ (value : Value) (context : Context),
    ((expand resolver schema value).runFrom context).1.isOk → value.MadeOf Part.Known
  | .tagged tag operand, context => by
    intro hok
    rw [expand] at hok
    cases hcommand : schema.command? tag.bareName with
    | none =>
      rw [hcommand] at hok
      cases hok
    | some command =>
      rw [hcommand] at hok
      obtain ⟨result, after, hrun, -⟩ := Expansion.of_runFrom_bind_isOk hok
      refine Value.madeOf_tagged.2 ⟨⟨command, hcommand⟩, known_of_expand_isOk operand context ?_⟩
      rw [hrun]
      rfl
  | .mapping entries, context => by
    intro hok
    rw [expand] at hok
    obtain ⟨result, after, hrun, -⟩ := Expansion.of_runFrom_bind_isOk hok
    refine Value.madeOf_mapping.2 (known_of_expandEntries_isOk entries context ?_)
    rw [hrun]
    rfl
  | .sequence items, context => by
    intro hok
    rw [expand] at hok
    obtain ⟨result, after, hrun, -⟩ := Expansion.of_runFrom_bind_isOk hok
    refine Value.madeOf_sequence.2 (known_of_expandItems_isOk items context ?_)
    rw [hrun]
    rfl
  | .null, _ | .bool _, _ | .number _, _ | .string _, _ =>
    fun _ => Value.madeOf_of_parts_eq_nil rfl

theorem known_of_expandEntries_isOk : ∀ (entries : Mapping) (context : Context),
    ((expandEntries resolver schema entries).runFrom context).1.isOk →
      Mapping.MadeOf Part.Known entries
  | [], _ => fun _ => Mapping.madeOf_nil
  | (key, value) :: rest, context => by
    intro hok
    rw [expandEntries] at hok
    obtain ⟨result, after, hfirst, hrest⟩ := Expansion.of_runFrom_bind_isOk hok
    obtain ⟨others, last, hothers, -⟩ := Expansion.of_runFrom_bind_isOk hrest
    refine Mapping.madeOf_cons.2 ⟨trivial, known_of_expand_isOk value context ?_,
      known_of_expandEntries_isOk rest after ?_⟩
    · rw [hfirst]
      rfl
    · rw [hothers]
      rfl

theorem known_of_expandItems_isOk : ∀ (items : List Value) (context : Context),
    ((expandItems resolver schema items).runFrom context).1.isOk →
      ∀ item ∈ items, item.MadeOf Part.Known
  | [], _ => fun _ => by simp
  | item :: rest, context => by
    intro hok
    rw [expandItems] at hok
    obtain ⟨result, after, hfirst, hrest⟩ := Expansion.of_runFrom_bind_isOk hok
    obtain ⟨others, last, hothers, -⟩ := Expansion.of_runFrom_bind_isOk hrest
    refine List.forall_mem_cons.2 ⟨known_of_expand_isOk item context ?_,
      known_of_expandItems_isOk rest after ?_⟩
    · rw [hfirst]
      rfl
    · rw [hothers]
      rfl

end

end Walks

/-- Whether the files that a step reads, if it succeeds, have no unknown tags. -/
def Vets {α : Type} (step : Expansion α) : Prop :=
  ∀ context, (step.runFrom context).1.isOk →
    ∃ new, (step.runFrom context).2.journal = new ++ context.journal ∧ Vetted new

theorem vetted_append {events events' : List Event} (h : Vetted events) (h' : Vetted events') :
    Vetted (events ++ events') := by
  intro location contents hopened
  rcases List.mem_append.1 hopened with hopened | hopened
  · exact h location contents hopened
  · exact h' location contents hopened

/-- The text of a file that is expanded with success has no unknown tags. -/
theorem known_of_expandText_isOk {resolver : Resolver} {location : Location} {text : String}
    {context : Context} (hok : ((expandText resolver location text).runFrom context).1.isOk) :
    ∃ root, Yaml.read text = .ok root ∧ root.MadeOf Part.Known := by
  rw [expandText] at hok
  obtain ⟨root, after, hread, hok⟩ := Expansion.of_runFrom_bind_isOk hok
  obtain ⟨schema, inner, -, hok⟩ := Expansion.of_runFrom_bind_isOk hok
  have hroot : Yaml.read text = .ok root := Outcome.mapError_eq_ok.1 (congrArg Prod.fst hread)
  exact ⟨root, hroot, known_of_expand_isOk root inner hok⟩

theorem loggable_vetted : Loggable (fun _ _ => True) Vetted where
  nil := by simp [Vetted]
  append h h' := vetted_append h' h
  used := by simp [Vetted]
  recalled := by simp [Vetted]
  visited := by
    intro resolver location text context after value outcome new _ hrun _ hnew
    obtain ⟨root, hroot, htags⟩ := known_of_expandText_isOk (by rw [hrun]; rfl)
    intro other contents hopened
    rcases mem_opened_visited.1 hopened with hopened | ⟨rfl, rfl⟩
    · exact hnew other contents hopened
    · exact ⟨text, root, rfl, hroot, htags⟩

theorem vets_expand (bundle : Bundle) (schema : Schema) (value : Value) :
    Vets (expand (resolve bundle) schema value) :=
  loggable_vetted.logs_expand bundle (fun _ _ _ => trivial) schema value

/-! ## Expansion -/

/-- Without tags there is nothing for a condition to exclude. -/
theorem admitted_untagged (part : Part) : Admitted Value.Untagged part := by
  cases part with
  | tag tag => exact fun _ _ _ _ => trivial
  | key key => trivial

/-- Expansion from a context in which all is plain has a plain result, if it has
one, and leaves all plain, even if it fails.  If it succeeds, all tags of the
value and of the files that it read have a meaning. -/
theorem expand_plain (bundle : Bundle) (schema : Schema) (value : Value) (context : Context)
    (hcontext : context.Plain) :
    let run := (expand (resolve bundle) schema value).runFrom context
    (∀ result, run.1 = .ok (some result) → result.Plain) ∧ run.2.Plain ∧
      (run.1.isOk → value.MadeOf Part.Known ∧
        ∃ new, run.2.journal = new ++ context.journal ∧ Vetted new) := by
  have hmakes : Makes Value.Untagged context (expand (resolve bundle) schema value)
      (OptionMadeOf Value.Untagged) :=
    makes_expand hcontext (fun part _ => admitted_untagged part) fun _ _ _ _ => trivial
  obtain ⟨hafter, hresult⟩ := hmakes fun _ _ _ _ _ part _ => admitted_untagged part
  refine ⟨fun result hrun => hresult (some result) hrun result rfl, hafter, fun hok => ⟨?_, ?_⟩⟩
  · exact known_of_expand_isOk value context hok
  · exact vets_expand bundle schema value context hok

/-- A context that knows a trait `paged` with a field `queryParams`. -/
def pagedContext : Context :=
  { registry := ⟨[("paged", [(.string "queryParams", .mapping [(.string "page", .null)])])]⟩ }

/-- A route that uses the trait. -/
def pagedRoute : Value :=
  .tagged ⟨"use"⟩ (.mapping [(.string Keyword.traitList, .string "paged")])

/-- Using the trait leaves its field. -/
theorem expand_plain_paged :
    pagedContext.Plain ∧
      ((expand (resolve {}) ⟨none⟩ pagedRoute).runFrom pagedContext).1 =
        .ok (some (.mapping [(.string "queryParams", .mapping [(.string "page", .null)])])) ∧
      Value.Plain (.mapping [(.string "queryParams", .mapping [(.string "page", .null)])]) ∧
      pagedRoute.MadeOf Part.Known := by
  have hcontext : pagedContext.Plain := by
    refine ⟨?_, fun _ _ => by rintro ⟨⟩⟩
    intro name fragment hget
    have hmem := Assoc.mem_of_lookup_eq_some hget
    obtain ⟨-, rfl⟩ := by simpa [pagedContext] using hmem
    simp [Mapping.MadeOf, Value.madeOf_mapping, Value.Untagged]
  have hrun : ((expand (resolve {}) ⟨none⟩ pagedRoute).runFrom pagedContext).1 =
      .ok (some (.mapping [(.string "queryParams", .mapping [(.string "page", .null)])])) := rfl
  obtain ⟨hresult, -, hknown⟩ := expand_plain {} ⟨none⟩ pagedRoute pagedContext hcontext
  refine ⟨hcontext, hrun, hresult _ hrun, (hknown ?_).1⟩
  rw [hrun]
  rfl

end Routebook
