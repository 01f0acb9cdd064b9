import Routebook.Proofs.Expansion.Apart
import Routebook.Proofs.Expansion.Journal
import Routebook.Proofs.Yaml.SingleEntry

/-!
# Including a file is writing its content in place

A reference to a file in the same directory, with its path segment, does what the
content of the file would do in its place.  The content has to be a mapping that
decides itself whether it groups routes, since an inclusion would decide this for
it, and that is not marked for being included again.

Both runs fail alike, too.  All that tells them apart afterwards is what is
remembered about the file itself.  The run with the content in place must not meet
the file: a reference to it from there would include it after all.
-/

namespace Routebook

/-- Whether one value is another in which one occurrence of `old` in value
position is replaced by `new`. -/
inductive Replaced (old new : Value) : Value → Value → Prop
  | here : Replaced old new old new
  | underTag (tag : Tag) {value value' : Value} (h : Replaced old new value value') :
    Replaced old new (.tagged tag value) (.tagged tag value')
  | inMapping (before after : Mapping) (key : Value) {value value' : Value}
      (h : Replaced old new value value') :
    Replaced old new (.mapping (before ++ (key, value) :: after))
      (.mapping (before ++ (key, value') :: after))
  | inSequence (before after : List Value) {value value' : Value}
      (h : Replaced old new value value') :
    Replaced old new (.sequence (before ++ value :: after)) (.sequence (before ++ value' :: after))

/-! ## Around the place -/

section Around

variable {location : Location} {bundle : Bundle} {schema : Schema} {value value' : Value}

theorem alike_resolve_refl (reference : Reference) :
    Alike location (resolve bundle reference) (resolve bundle reference) :=
  alike_resolve bundle location reference reference ⟨rfl, rfl⟩

theorem alikeAt_expandEntries (key : Value) (before after : Mapping)
    (h : ∀ context, AlikeAt location context context (expand (resolve bundle) schema value)
      (expand (resolve bundle) schema value')) (context : Context) :
    AlikeAt location context context
      (expandEntries (resolve bundle) schema (before ++ (key, value) :: after))
      (expandEntries (resolve bundle) schema (before ++ (key, value') :: after)) := by
  induction before generalizing context with
  | nil =>
    rw [List.nil_append, List.nil_append, expandEntries, expandEntries]
    refine alikeAt_bind (h context) fun result => ?_
    have hafter : Alike location (expandEntries (resolve bundle) schema after)
        (expandEntries (resolve bundle) schema after) :=
      alike_walkable.expandEntries (fun _ _ => alike_resolve_refl _) after
    exact alike_bind hafter fun _ => alike_walkable.pure _
  | cons entry rest ih =>
    obtain ⟨first, value⟩ := entry
    rw [List.cons_append, List.cons_append, expandEntries, expandEntries]
    refine alikeAt_bind_same fun result after _ => ?_
    exact alikeAt_bind (ih after) fun _ => alike_walkable.pure _

theorem alikeAt_expandItems (before after : List Value)
    (h : ∀ context, AlikeAt location context context (expand (resolve bundle) schema value)
      (expand (resolve bundle) schema value')) (context : Context) :
    AlikeAt location context context
      (expandItems (resolve bundle) schema (before ++ value :: after))
      (expandItems (resolve bundle) schema (before ++ value' :: after)) := by
  induction before generalizing context with
  | nil =>
    rw [List.nil_append, List.nil_append, expandItems, expandItems]
    refine alikeAt_bind (h context) fun result => ?_
    have hafter : Alike location (expandItems (resolve bundle) schema after)
        (expandItems (resolve bundle) schema after) :=
      alike_walkable.expandItems (fun _ _ => alike_resolve_refl _) after
    exact alike_bind hafter fun _ => alike_walkable.pure _
  | cons first rest ih =>
    rw [List.cons_append, List.cons_append, expandItems, expandItems]
    refine alikeAt_bind_same fun result after _ => ?_
    exact alikeAt_bind (ih after) fun _ => alike_walkable.pure _

/-- What is alike at a place is alike around it. -/
theorem alikeAt_of_replaced {old new : Value} (h : Replaced old new value value')
    (hplace : ∀ context, AlikeAt location context context (expand (resolve bundle) schema old)
      (expand (resolve bundle) schema new)) (context : Context) :
    AlikeAt location context context (expand (resolve bundle) schema value)
      (expand (resolve bundle) schema value') := by
  induction h generalizing context with
  | here => exact hplace context
  | underTag tag h ih =>
    rw [expand, expand]
    cases schema.command? tag.bareName with
    | none => exact fun _ => ⟨rfl, .refl location context⟩
    | some command =>
      refine alikeAt_bind (ih context) fun inner => ?_
      dsimp only
      split
      · exact alike_walkable.run (fun _ _ => alike_resolve_refl _) command _
      · exact alike_walkable.throw _
  | inMapping before after key h ih =>
    rw [expand, expand]
    exact alikeAt_bind (alikeAt_expandEntries key before after ih context) fun _ =>
      alike_walkable.pure _
  | inSequence before after h ih =>
    rw [expand, expand]
    exact alikeAt_bind (alikeAt_expandItems before after ih context) fun _ =>
      alike_walkable.pure _

end Around

/-! ## At the place -/

section Entries

variable {resolver : Resolver} {schema : Schema} {name : String}

/-- Expansion adds no name to a mapping. -/
theorem has_expandEntries {entries result : Mapping} {context last : Context}
    (hrun : (expandEntries resolver schema entries).runFrom context = (.ok result, last))
    (h : Mapping.has entries name = false) : Mapping.has result name = false := by
  have hkeys := map_fst_sublist_of_expandEntries hrun
  have hwritten : ∀ key ∈ entries.map Prod.fst, key.isName name = false := by
    simpa [Mapping.has] using h
  have hleft : ∀ key ∈ result.map Prod.fst, key.isName name = false :=
    fun key hkey => hwritten key (hkeys.subset hkey)
  simpa [Mapping.has] using hleft

/-- A field with a boolean stays as it is. -/
theorem get?_expandEntries {flag : Bool} {entries result : Mapping} {context last : Context}
    (hrun : (expandEntries resolver schema entries).runFrom context = (.ok result, last))
    (h : Mapping.get? entries name = some (.bool flag)) :
    Mapping.get? result name = some (.bool flag) := by
  induction entries generalizing result context last with
  | nil => cases h
  | cons entry rest ih =>
    obtain ⟨key, value⟩ := entry
    rw [expandEntries] at hrun
    obtain ⟨first, after, hfirst, hrun⟩ := Expansion.runFrom_bind_eq_ok hrun
    obtain ⟨others, last, hothers, hrun⟩ := Expansion.runFrom_bind_eq_ok hrun
    cases hrun
    cases hkey : key.isName name with
    | true =>
      obtain rfl : value = .bool flag := by simpa [Mapping.get?, hkey] using h
      simp only [expand] at hfirst
      cases hfirst
      simp [Mapping.get?, hkey]
    | false =>
      have hrest : Mapping.get? rest name = some (.bool flag) := by
        simpa [Mapping.get?, hkey] using h
      have hlater := ih hothers hrest
      cases first with
      | none => exact hlater
      | some first => simpa [Mapping.get?, hkey] using hlater

end Entries

section Place

variable {bundle : Bundle} {schema : Schema} {tag : Tag} {file : String}

theorem runFrom_expand_includePath (htag : tag.bareName = Command.includePath.name)
    (resolver : Resolver) (context : Context) :
    (expand resolver schema (.tagged tag (.string file))).runFrom context =
      (resolver ⟨schema.directory, file, false⟩).runFrom context := by
  have hcommand : schema.command? tag.bareName = some .includePath := by
    rw [htag]
    rfl
  exact runFrom_expand_scalar hcommand rfl resolver context

/-- An inclusion that is settled without a change. -/
theorem runFrom_settle_of_grouped {reference : Reference} {entries : Mapping}
    (hpathless : reference.pathless = false)
    (hreusable : Mapping.has entries Keyword.reusable = false)
    (hvirtual : Mapping.has entries Keyword.virtualField) (context : Context) :
    (settle reference (some (.mapping entries))).runFrom context =
      (.ok (some (.mapping entries)), { context with
        inclusions := context.inclusions.finish reference.location }) := by
  have hmark : ¬ isReusable (.mapping entries) := by
    simp [isReusable, Mapping.get?_eq_none_iff.2 hreusable]
  have hkeep : withDefaults false (.mapping entries) = .mapping entries := by
    simp [withDefaults, Mapping.setDefault, hvirtual]
  rw [runFrom_settle_of_once reference hmark, hpathless, hkeep]

/-- The text of a file of a directory is expanded as its content would be by a
schema for the directory. -/
theorem alikeAt_expandText {location : Location} {text : String} {root : Value} {context : Context}
    (hparent : location.toPath.parent? = some (Location.base schema.directory).toPath)
    (hroot : Yaml.read text = .ok root) :
    AlikeAt location (context.enter location (.ok text)) context
      (expandText (resolve bundle) location text) (expand (resolve bundle) schema root) := by
  have hbase : Location.base ((context.enter location (.ok text)).schemas.obtain
      location.toPath.parent?).1.directory = Location.base schema.directory := by
    rw [base_eq_of_servesFor (Schemas.servesFor_obtain ..), hparent]
    exact Location.ofPath_toPath (Location.proper_base schema.directory)
  have hwalk := alike_expand (fun _ _ => alike_resolve bundle location _ _) hbase root
  rw [AlikeAt, runFrom_expandText_of_read hroot]
  exact hwalk.alikeAt ⟨rfl, Inclusions.without_start_self ..⟩

/-- A mapping that groups routes and has no mark still does so when it has been
expanded. -/
theorem exists_of_runFrom_expand_mapping {resolver : Resolver} {entries : Mapping} {flag : Bool}
    {value : Option Value} {context after : Context}
    (hvirtual : Mapping.get? entries Keyword.virtualField = some (.bool flag))
    (hreusable : Mapping.has entries Keyword.reusable = false)
    (hrun : (expand resolver schema (.mapping entries)).runFrom context = (.ok value, after)) :
    ∃ result, value = some (.mapping result) ∧ Mapping.has result Keyword.reusable = false ∧
      Mapping.has result Keyword.virtualField := by
  rw [expand] at hrun
  obtain ⟨result, middle, hentries, hrun⟩ := Expansion.runFrom_bind_eq_ok hrun
  cases hrun
  exact ⟨result, rfl, has_expandEntries hentries hreusable,
    Mapping.has_of_get?_eq_some (get?_expandEntries hentries hvirtual)⟩

/-- A reference to a file does what the content of the file does. -/
theorem alikeAt_includePath {name text : String} {entries : Mapping} {flag : Bool}
    (htag : tag.bareName = Command.includePath.name)
    (hfile : (⟨file⟩ : Path).components = [.name name])
    (hread : bundle.read (Location.ofReference schema.directory ⟨file⟩).toPath = .ok text)
    (hroot : Yaml.read text = .ok (.mapping entries))
    (hvirtual : Mapping.get? entries Keyword.virtualField = some (.bool flag))
    (hreusable : Mapping.has entries Keyword.reusable = false) (context : Context) :
    AlikeAt (Location.ofReference schema.directory ⟨file⟩) context context
      (expand (resolve bundle) schema (.tagged tag (.string file)))
      (expand (resolve bundle) schema (.mapping entries)) := by
  intro hafter
  rw [runFrom_expand_includePath htag, runFrom_resolve, resolveOnce]
  have hparent := @Location.parent?_ofReference schema.directory file name hfile
  generalize hreference : (⟨schema.directory, file, false⟩ : Reference) = reference
  have hlocation : Location.ofReference schema.directory ⟨file⟩ = reference.location := by
    rw [← hreference]
    rfl
  have hpathless : reference.pathless = false := by rw [← hreference]
  rw [hlocation] at hafter hparent hread ⊢
  have hnew : context.inclusions.progress? reference.location = none :=
    (traces_expand (traces_resolve bundle) schema _).progress?_eq_none hafter
  obtain ⟨hresult, hagree⟩ := alikeAt_expandText hparent hroot hafter
  rw [runFrom_includeOnce_of_read hnew hread, hread, Expansion.runFrom_bind]
  rcases hrun : (expandText (resolve bundle) reference.location text).runFrom
    (context.enter reference.location (.ok text)) with ⟨outcome, after⟩
  rcases hrun' : (expand (resolve bundle) schema (.mapping entries)).runFrom context with
    ⟨outcome', after'⟩
  rw [hrun, hrun'] at hresult hagree
  obtain rfl : outcome = outcome' := hresult
  cases outcome with
  | error error => exact ⟨rfl, ⟨hagree.registry, hagree.inclusions⟩⟩
  | ok value =>
    obtain ⟨result, rfl, hmark, hgrouped⟩ :=
      exists_of_runFrom_expand_mapping hvirtual hreusable hrun'
    dsimp only
    rw [runFrom_settle_of_grouped hpathless hmark hgrouped]
    refine ⟨rfl, ⟨hagree.registry, ?_⟩⟩
    exact (Inclusions.without_finish_self ..).trans hagree.inclusions

end Place

/-- Expanding a value with a reference to a file of the same directory, with its
path segment, is expanding the value with the content of the file in place of the
reference: the same result or error, the same traits, and the same about all other
files.  The content decides whether it groups routes and is not marked, and the
run with the content in place does not meet the file. -/
theorem expand_inPlace {bundle : Bundle} {schema : Schema} {tag : Tag} {file name text : String}
    {entries : Mapping} {flag : Bool} {value value' : Value} {context : Context}
    (htag : tag.bareName = Command.includePath.name)
    (hfile : (⟨file⟩ : Path).components = [.name name])
    (hread : bundle.read (Location.ofReference schema.directory ⟨file⟩).toPath = .ok text)
    (hroot : Yaml.read text = .ok (.mapping entries))
    (hvirtual : Mapping.get? entries Keyword.virtualField = some (.bool flag))
    (hreusable : Mapping.has entries Keyword.reusable = false)
    (hnew : context.inclusions.progress? (Location.ofReference schema.directory ⟨file⟩) = none)
    (hvalue : Replaced (.tagged tag (.string file)) (.mapping entries) value value')
    (hunmet : ∀ new, ((expand (resolve bundle) schema value').runFrom context).2.journal =
      new ++ context.journal → .requested (Location.ofReference schema.directory ⟨file⟩) ∉ new) :
    let run := (expand (resolve bundle) schema value).runFrom context
    let run' := (expand (resolve bundle) schema value').runFrom context
    run.1 = run'.1 ∧ run.2.registry = run'.2.registry ∧
      run.2.inclusions.without (Location.ofReference schema.directory ⟨file⟩) =
        run'.2.inclusions.without (Location.ofReference schema.directory ⟨file⟩) := by
  have hafter : ((expand (resolve bundle) schema value').runFrom context).2.inclusions.progress?
      (Location.ofReference schema.directory ⟨file⟩) = none := by
    by_contra hknown
    have hcourse := traces_expand (traces_resolve bundle) schema value' context
    obtain ⟨new, hjournal, hrequested⟩ := hcourse.exists_requested hnew hknown
    exact hunmet new hjournal hrequested
  have hplace := alikeAt_includePath htag hfile hread hroot hvirtual hreusable
  obtain ⟨hresult, hagree⟩ := alikeAt_of_replaced hvalue hplace context hafter
  exact ⟨hresult, hagree.registry, hagree.inclusions⟩

/-- Files with a group of routes. -/
def groupBundle : Bundle :=
  .ofFiles [(⟨"users.yaml"⟩, "virtual: true")]

/-- A document with a route `users` of the given value. -/
def usersDocument (value : Value) : Value :=
  .mapping [(.string "users", value)]

/-- The group of routes, included and written in place. -/
theorem expand_inPlace_users :
    let location := Location.ofReference none ⟨"users.yaml"⟩
    let run := (expand (resolve groupBundle) ⟨none⟩ (usersDocument
      (.tagged ⟨"includePath"⟩ (.string "users.yaml")))).runFrom {}
    run.1 = .ok (some (usersDocument (.mapping [(.string Keyword.virtualField, .bool true)]))) ∧
      run.2.registry = {} ∧ run.2.inclusions.without location = {} := by
  have hfile : (⟨"users.yaml"⟩ : Path).components = [.name "users.yaml"] := by decide
  have hread : groupBundle.read (Location.ofReference none ⟨"users.yaml"⟩).toPath =
      .ok "virtual: true" := rfl
  have htokens : Yaml.tokens "virtual: true" = Yaml.entryTokens "virtual" "true" := by
    decide +kernel
  have hroot : Yaml.read "virtual: true" =
      .ok (.mapping [(.string Keyword.virtualField, .bool true)]) :=
    Yaml.read_entry htokens rfl (by decide) rfl
  have hvalue : Replaced (.tagged ⟨"includePath"⟩ (.string "users.yaml"))
      (.mapping [(.string Keyword.virtualField, .bool true)])
      (usersDocument (.tagged ⟨"includePath"⟩ (.string "users.yaml")))
      (usersDocument (.mapping [(.string Keyword.virtualField, .bool true)])) :=
    .inMapping [] [] (.string "users") .here
  have hrun : (expand (resolve groupBundle) ⟨none⟩ (usersDocument
      (.mapping [(.string Keyword.virtualField, .bool true)]))).runFrom {} =
        (.ok (some (usersDocument (.mapping [(.string Keyword.virtualField, .bool true)]))), {}) :=
    rfl
  obtain ⟨hresult, hregistry, hinclusions⟩ := @expand_inPlace groupBundle ⟨none⟩ ⟨"includePath"⟩
    "users.yaml" "users.yaml" "virtual: true" _ true _ _ {} (by decide) hfile hread hroot rfl
    (by decide) rfl hvalue (by
      rw [hrun]
      intro new hjournal
      obtain rfl : new = [] := by simpa using hjournal.symm
      exact List.not_mem_nil)
  rw [hrun] at hresult hregistry hinclusions
  exact ⟨hresult, hregistry, hinclusions⟩

end Routebook
