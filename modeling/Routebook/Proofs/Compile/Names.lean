import Routebook.Compile
import Routebook.Proofs.Expansion.Material
import Routebook.Proofs.Route.Levels
import Routebook.Proofs.Yaml.SingleEntry

/-!
# Where the names in a document come from

Routes, parameters and response codes of a compiled document have names that are
written as keys, in the root or in a file that was read, or that end a path of an
applied trait.

The exception are the keys that commands set.  All of them are fields or markers
of a route, so that none names a route below another one.  But a command sets its
keys whatever place its mapping is in.  At the root of a document `virtual` and
`noPath` are no fields, and in a map of entities every key is a name.
-/

namespace Routebook

open Outcome

/-- What a document is compiled from. -/
structure Material where
  bundle : Bundle
  root : Value
  /-- The context in which the expansion of the root starts. -/
  start : Context
  /-- The steps of the expansion. -/
  journal : List Event

namespace Material

/-- Whether a part is written in the root or in a file that was read. -/
inductive Writes (material : Material) (part : Part) : Prop
  | inRoot (h : part ∈ material.root.parts) : Writes material part
  | inFile {location : Location} {text : String} {file : Value}
      (hopened : .opened location (.ok text) ∈ material.journal)
      (hread : Yaml.read text = .ok file) (h : part ∈ file.parts) : Writes material part

/-- Whether a trait is applied in the course of the expansion. -/
def Applies (material : Material) (fragment : Mapping) : Prop :=
  let obtained := material.start.schemas.obtain material.start.configDir
  Applied material.bundle fragment obtained.1 material.root
    { material.start with schemas := obtained.2 }

/-- Whether a text is written as a key or ends a path of an applied trait. -/
inductive Names (material : Material) (text : String) : Prop
  | written {key : Value} (h : material.Writes (.key key)) (hname : key.name? = some text) :
    Names material text
  | target {fragment : Mapping} {path : String} (happlies : material.Applies fragment)
      (hpath : path ∈ Fragment.declaredPaths fragment) (htarget : Fragment.target path = text) :
    Names material text

/-- Whether a tag is written whose command sets a key. -/
def Stamps (material : Material) (name : String) : Prop :=
  ∃ tag command, material.Writes (.tag tag) ∧ Command.ofName? tag.bareName = some command ∧
    name ∈ command.stamps

/-- Whether a key, if the part is one, is accounted for. -/
def Accounts (material : Material) : Part → Prop
  | .tag _ => True
  | .key key =>
    (∀ text, key.name? = some text → material.Names text) ∨
      ∃ name, key = .string name ∧ material.Stamps name

end Material

/-- The context in which the root of a document is expanded. -/
def Options.start (options : Options) (directory : Option Path) : Context where
  configDir := options.configDir.or directory
  methodPrefix := options.methodPrefix

/-- Whether a route stands among the given ones or below one of them. -/
inductive Route.Among (routes : List Route) : Route → Prop
  | here {route : Route} (h : route ∈ routes) : Among routes route
  | inside {outer route : Route} (houter : Among routes outer) (h : route ∈ outer.routes) :
    Among routes route

/-- The names of the parameters and of the response codes of a route. -/
def RouteDetails.entityNames (details : RouteDetails) : List String :=
  details.pathParams.map Prod.fst ++ details.queryParams.map Prod.fst ++
    details.headerParams.map Prod.fst ++ details.responseCodes.map Prod.fst

/-- Whether the names in a document come from what it is compiled from. -/
structure Document.NamedBy (document : Document) (material : Material) : Prop where
  /-- Routes at the top: with a name that a command has set only if a command has
  left the root. -/
  outermost : ∀ route ∈ document.routes, material.Names route.name ∨
    (∃ tag operand, material.root = .tagged tag operand) ∧ material.Stamps route.name ∧
      route.name ∈ [Keyword.virtualField, Keyword.noPathField]
  /-- Routes below others. -/
  inner : ∀ outer, Route.Among document.routes outer →
    ∀ route ∈ outer.routes, material.Names route.name
  entities : ∀ route, Route.Among document.routes route →
    ∀ name ∈ route.details.entityNames, material.Names name ∨ material.Stamps name

/-! ## What commands set -/

namespace Command

theorem takes_of_mem_stamps (command : Command) :
    ∀ name ∈ command.stamps, Level.route.takes name := by
  cases command <;> decide

theorem mem_of_mem_stamps (command : Command) :
    ∀ name ∈ command.stamps, (optionName? name).isNone →
      name ∈ [Keyword.virtualField, Keyword.noPathField] := by
  cases command <;> decide

end Command

/-! ## Expansion -/

namespace Material

variable {material : Material}

theorem admitted_of_writes {part : Part} (h : material.Writes part) :
    Admitted material.Accounts part := by
  cases part with
  | key key => exact .inl fun text hname => .written h hname
  | tag tag =>
    intro command hcommand name hname
    exact .inr ⟨name, rfl, tag, command, h, hcommand, hname⟩

theorem targetsAllowed_of_applies {fragment : Mapping} (h : material.Applies fragment) :
    Fragment.TargetsAllowed material.Accounts fragment := by
  intro path hpath
  left
  rintro text ⟨⟩
  exact .target h hpath rfl

theorem madeOf_of_expandRoot {bundle : Bundle} {root : Value} {start after : Context}
    {entries : Mapping} (hstart : ∀ allowed, start.MadeOf allowed)
    (hrun : (expandRoot bundle root).runFrom start = (.ok entries, after)) :
    Mapping.MadeOf (Accounts ⟨bundle, root, start, after.journal⟩) entries := by
  let material : Material := ⟨bundle, root, start, after.journal⟩
  obtain ⟨value, hexpand, hvalue⟩ := runFrom_expandRoot_eq_ok.1 hrun
  have hcontext : Context.MadeOf material.Accounts
      { start with schemas := (start.schemas.obtain start.configDir).2 } :=
    ⟨(hstart material.Accounts).registry, (hstart material.Accounts).inclusions⟩
  have hroot : root.MadeOf (Admitted material.Accounts) :=
    fun part hpart => admitted_of_writes (.inRoot hpart)
  -- The journal in `material` is the one that the run leaves.
  have hfiles : FilesAdmitted material.Accounts after.journal :=
    fun location text file hopened hread part hpart =>
      admitted_of_writes (.inFile hopened hread hpart)
  have htargets : ∀ fragment, material.Applies fragment →
      Fragment.TargetsAllowed material.Accounts fragment :=
    fun fragment => targetsAllowed_of_applies
  have hmakes := makes_expand hcontext hroot htargets
  rw [Makes, hexpand] at hmakes
  obtain ⟨-, hmade⟩ := hmakes hfiles
  rcases hvalue with rfl | ⟨-, rfl⟩
  · exact Value.madeOf_mapping.1 (hmade _ rfl _ rfl)
  · exact Mapping.madeOf_nil

/-- A root without a tag has no keys but those that are written in it. -/
theorem writes_of_expandRoot {bundle : Bundle} {root : Value} {start after : Context}
    {entries : Mapping} {journal : List Event} (hroot : ∀ tag operand, root ≠ .tagged tag operand)
    (hrun : (expandRoot bundle root).runFrom start = (.ok entries, after)) {entry : Value × Value}
    (hentry : entry ∈ entries) : Writes ⟨bundle, root, start, journal⟩ (.key entry.1) := by
  obtain ⟨value, hexpand, hvalue⟩ := runFrom_expandRoot_eq_ok.1 hrun
  rcases hvalue with rfl | ⟨-, rfl⟩
  · cases root with
    | tagged tag operand => exact absurd rfl (hroot tag operand)
    | mapping own =>
      rw [expand] at hexpand
      obtain ⟨expanded, middle, hentries, hexpand⟩ := Expansion.runFrom_bind_eq_ok hexpand
      cases hexpand
      have hkeys := (map_fst_sublist_of_expandEntries hentries).subset
      obtain ⟨other, hother, hkey⟩ := List.mem_map.1 (hkeys (List.mem_map_of_mem hentry))
      have hwritten : (Value.mapping own).MadeOf (· ∈ (Value.mapping own).parts) :=
        fun _ hpart => hpart
      rw [← hkey]
      exact .inRoot (Value.madeOf_mapping.1 hwritten other hother).1
    | sequence items =>
      rw [expand] at hexpand
      obtain ⟨expanded, middle, -, hexpand⟩ := Expansion.runFrom_bind_eq_ok hexpand
      cases hexpand
    | null | bool _ | number _ | string _ =>
      simp only [expand] at hexpand
      cases hexpand
  · cases hentry

end Material

/-! ## Routes and entities -/

section Building

variable {allowed : Part → Prop}

/-- Whether a route is built from a value of allowed parts. -/
def Route.Stands (allowed : Part → Prop) (route : Route) : Prop :=
  ∃ parent promotion value own, buildRoute parent route.name promotion value = .ok route ∧
    value.asFields? "description" = some own ∧ route.Mirrors own ∧ value.MadeOf allowed

/-- The entries that stand for routes below a value have allowed keys and values. -/
theorem madeOf_filter_startsRoute {value : Value} {own : Mapping} (hvalue : value.MadeOf allowed)
    (hown : value.asFields? "description" = some own) :
    Mapping.MadeOf allowed (own.filter Level.route.startsRoute) := by
  cases value with
  | mapping entries =>
    cases hown
    exact (Value.madeOf_mapping.1 hvalue).subset (List.filter_subset_self _)
  | _ =>
    rw [(filterMap_optionOf?_of_ne_mapping (by simp) hown).2]
    exact Mapping.madeOf_nil

theorem stands_of_allMirror {level : Level} {routes : List Route} {entries : Mapping}
    {route : Route} (hmirror : AllMirror level routes entries)
    (hentries : Mapping.MadeOf allowed entries) (hroute : route ∈ routes) :
    route.Stands allowed := by
  obtain ⟨⟨key, value⟩, hentry, -, hbuild, own, hown, hmirrors⟩ := hmirror.exists_entry hroute
  exact ⟨.root, _, value, own, hbuild .root, hown, hmirrors, (hentries _ hentry).2⟩

/-- All routes of a tree are built from allowed parts if those on top are. -/
theorem stands_of_among {routes : List Route} {route : Route}
    (hroutes : ∀ route ∈ routes, route.Stands allowed) (h : Route.Among routes route) :
    route.Stands allowed := by
  induction h with
  | here h => exact hroutes _ h
  -- The routes below are built from what the outer one is built from.
  | inside houter h ih =>
    obtain ⟨parent, promotion, value, own, -, hown, hmirrors, hvalue⟩ := ih
    exact stands_of_allMirror hmirrors.routes (madeOf_filter_startsRoute hvalue hown) h

/-- A promotion adds scalars only. -/
theorem mem_promoted {promotion : Option Promotion} {own : Mapping} {entry : Value × Value}
    (h : entry ∈ promoted promotion own) : entry ∈ own ∨ entry.2.parts = [] := by
  cases promotion with
  | none => exact .inl h
  | some promotion =>
    rcases Mapping.mem_setDefault h with h | rfl
    · rcases Mapping.mem_insert h with h | h
      · exact .inl h
      · exact .inr (by rw [h, Value.parts])
    · exact .inr rfl

theorem madeOf_raw? {promotion : Option Promotion} {scope : Scope} {value found : Value}
    {own : Mapping} {field : String} (hvalue : value.MadeOf allowed)
    (hown : value.asFields? "description" = some own)
    (hfound : Fields.raw? ⟨.route, scope, promoted promotion own⟩ field = some found) :
    found.MadeOf allowed := by
  obtain ⟨entry, hfind, rfl⟩ := Option.map_eq_some_iff.1 hfound
  rcases mem_promoted (List.mem_of_find?_eq_some hfind) with hentry | hparts
  · cases value with
    | mapping entries =>
      cases hown
      exact (Value.madeOf_mapping.1 hvalue entry hentry).2
    | sequence _ | tagged _ _ => cases hown
    | null =>
      cases hown
      cases hentry
    | bool _ | number _ | string _ =>
      cases hown
      rw [List.mem_singleton] at hentry
      rw [hentry]
      exact Value.madeOf_of_parts_eq_nil rfl
  · exact Value.madeOf_of_parts_eq_nil hparts

theorem exists_key_of_namedEntities {α : Type} {fields : Fields} {field : String}
    {build : Fields.Builder α} {entries : Mapping} {entities : List (String × α)}
    (h : fields.namedEntities field build entries = .ok entities) :
    ∀ name ∈ entities.map Prod.fst, ∃ entry ∈ entries, entry.1.name? = some name := by
  induction entries generalizing entities with
  | nil =>
    cases h
    simp
  | cons entry rest ih =>
    obtain ⟨key, value⟩ := entry
    rw [Fields.namedEntities] at h
    cases hname : key.name? with
    | none =>
      rw [hname] at h
      cases h
    | some text =>
      simp only [hname, bind_eq_ok] at h
      obtain ⟨entity, -, others, hothers, h⟩ := h
      cases h
      rw [List.map_cons, List.forall_mem_cons]
      refine ⟨⟨(key, value), List.mem_cons_self, hname⟩, ?_⟩
      intro name hmem
      obtain ⟨entry, hentry, htext⟩ := ih hothers name hmem
      exact ⟨entry, List.mem_cons_of_mem _ hentry, htext⟩

theorem exists_key_of_entitiesByName {α : Type} {fields : Fields} {field : String}
    {build : Fields.Builder α} {entities : List (String × α)}
    (h : fields.entitiesByName field build = .ok entities) :
    ∀ name ∈ entities.map Prod.fst, ∃ entries, fields.raw? field = some (.mapping entries) ∧
      ∃ entry ∈ entries, entry.1.name? = some name := by
  intro name hname
  rw [Fields.entitiesByName] at h
  split at h
  · cases h
    cases hname
  · cases h
    cases hname
  · rename_i entries hraw
    cases hnamed : fields.namedEntities field build entries with
    | error fault =>
      rw [hnamed] at h
      cases h
    | ok pairs =>
      rw [hnamed] at h
      cases h
      refine ⟨entries, hraw, ?_⟩
      exact exists_key_of_namedEntities hnamed name (Assoc.map_fst_ofList_subset pairs hname)
  · cases h

/-- The names of parameters and response codes are the texts of allowed keys. -/
theorem exists_key_of_entityNames {route : Route} (h : route.Stands allowed) :
    ∀ name ∈ route.details.entityNames,
      ∃ key : Value, allowed (.key key) ∧ key.name? = some name := by
  obtain ⟨parent, promotion, value, own, hbuild, hown, -, hvalue⟩ := h
  have hread := RouteDetails.readFrom_of_read (read_of_buildRoute hbuild hown)
  have hkey : ∀ {α : Type} {field : String} {build : Fields.Builder α}
      {entities : List (String × α)} {name : String},
      Fields.entitiesByName ⟨.route, parent.child route.name, promoted promotion own⟩ field build =
        .ok entities → name ∈ entities.map Prod.fst →
        ∃ key : Value, allowed (.key key) ∧ key.name? = some name := by
    intro α field build entities name hentities hname
    obtain ⟨entries, hraw, entry, hentry, htext⟩ :=
      exists_key_of_entitiesByName hentities name hname
    have hfound := madeOf_raw? hvalue hown hraw
    exact ⟨entry.1, (Value.madeOf_mapping.1 hfound entry hentry).1, htext⟩
  intro name hname
  simp only [RouteDetails.entityNames, List.mem_append] at hname
  rcases hname with ((hname | hname) | hname) | hname
  · exact hkey hread.pathParams hname
  · exact hkey hread.queryParams hname
  · exact hkey hread.headerParams hname
  · exact hkey hread.responseCodes hname

end Building

/-! ## Compilation -/

namespace Material

variable {material : Material} {key value : Value} {name : String}

/-- No key that a command sets stands for a route below another one. -/
theorem names_of_startsRoute (hkey : material.Accounts (.key key))
    (hstarts : Level.route.startsRoute (key, value)) (hname : key.name? = some name) :
    material.Names name := by
  rcases hkey with hkey | ⟨stamp, rfl, tag, command, -, -, hstamp⟩
  · exact hkey name hname
  · have htakes := command.takes_of_mem_stamps stamp hstamp
    simp [Level.startsRoute, Level.consumes, htakes] at hstarts

/-- At the top of a document the keys of routes may be among those that commands
set. -/
theorem names_or_stamped (hkey : material.Accounts (.key key))
    (hstarts : Level.document.startsRoute (key, value)) (hname : key.name? = some name) :
    material.Names name ∨
      material.Stamps name ∧ name ∈ [Keyword.virtualField, Keyword.noPathField] := by
  rcases hkey with hkey | ⟨stamp, rfl, tag, command, hwritten, hcommand, hstamp⟩
  · exact .inl (hkey name hname)
  · obtain rfl : stamp = name := by simpa [Value.name?, Value.text?] using hname
    have hoption : (optionName? stamp).isNone := by
      rw [Level.startsRoute, hname] at hstarts
      simp_all
    exact .inr ⟨⟨tag, command, hwritten, hcommand, hstamp⟩,
      command.mem_of_mem_stamps stamp hstamp hoption⟩

theorem names_or_stamps (hkey : material.Accounts (.key key)) (hname : key.name? = some name) :
    material.Names name ∨ material.Stamps name := by
  rcases hkey with hkey | ⟨stamp, rfl, hstamp⟩
  · exact .inl (hkey name hname)
  · obtain rfl : stamp = name := by simpa [Value.name?, Value.text?] using hname
    exact .inr hstamp

end Material

theorem compile_eq_ok {source : Source} {options : Options} {bundle : Bundle}
    {document : Document} :
    compile source options bundle = .ok document ↔
      ∃ root directory entries after, source.load bundle = .ok (root, directory) ∧
        (expandRoot bundle root).runFrom (options.start directory) = (.ok entries, after) ∧
        Document.build entries after = .ok document := by
  rw [compile, bind_eq_ok]
  constructor
  · rintro ⟨⟨root, directory⟩, hload, h⟩
    rcases hrun : (expandRoot bundle root).runFrom (options.start directory) with ⟨outcome, after⟩
    rw [Options.start] at hrun
    dsimp only at h
    rw [hrun] at h
    obtain ⟨entries, rfl, hbuild⟩ := bind_eq_ok.1 h
    exact ⟨root, directory, entries, after, hload, hrun, mapError_eq_ok.1 hbuild⟩
  · rintro ⟨root, directory, entries, after, hload, hrun, hbuild⟩
    refine ⟨(root, directory), hload, ?_⟩
    rw [Options.start] at hrun
    dsimp only
    rw [hrun]
    exact bind_eq_ok.2 ⟨entries, rfl, mapError_eq_ok.2 hbuild⟩

theorem namedBy_of_expandRoot {bundle : Bundle} {root : Value} {start after : Context}
    {entries : Mapping} {document : Document} (hstart : ∀ allowed, start.MadeOf allowed)
    (hrun : (expandRoot bundle root).runFrom start = (.ok entries, after))
    (hbuild : Document.build entries after = .ok document) :
    document.NamedBy ⟨bundle, root, start, document.context.journal⟩ := by
  let material : Material := ⟨bundle, root, start, after.journal⟩
  have hentries : Mapping.MadeOf material.Accounts entries :=
    Material.madeOf_of_expandRoot hstart hrun
  simp only [Document.build, bind_eq_ok, pure_eq_ok] at hbuild
  obtain ⟨_, -, _, -, _, -, _, -, _, -, _, -, routes, hroutes, rfl⟩ := hbuild
  obtain ⟨hmirror, -⟩ := allMirror_of_buildRoutes entries .document .root routes hroutes
  have hchildren : Mapping.MadeOf material.Accounts (entries.filter Level.document.startsRoute) :=
    hentries.subset (List.filter_subset_self _)
  have hstands : ∀ route, Route.Among routes route → route.Stands material.Accounts :=
    fun route => stands_of_among fun route => stands_of_allMirror hmirror hchildren
  constructor
  case outermost =>
    intro route hroute
    obtain ⟨⟨key, value⟩, hentry, hname, -⟩ := hmirror.exists_entry hroute
    obtain ⟨hmem, hstarts⟩ := List.mem_filter.1 hentry
    -- Walking over a mapping adds no key; only a command does.
    by_cases hroot : ∃ tag operand, root = .tagged tag operand
    · exact (Material.names_or_stamped (hentries _ hmem).1 hstarts hname).imp_right
        fun hstamped => ⟨hroot, hstamped⟩
    · left
      have hwritten : material.Writes (.key key) := Material.writes_of_expandRoot
        (fun tag operand heq => hroot ⟨tag, operand, heq⟩) hrun hmem
      exact .written hwritten hname
  case inner =>
    intro outer houter route hroute
    obtain ⟨parent, promotion, value, own, -, hown, hmirrors, hvalue⟩ := hstands outer houter
    obtain ⟨⟨key, inner⟩, hentry, hname, -⟩ := hmirrors.routes.exists_entry hroute
    have hkey := (madeOf_filter_startsRoute hvalue hown _ hentry).1
    exact Material.names_of_startsRoute hkey (List.mem_filter.1 hentry).2 hname
  case entities =>
    intro route hroute name hname
    obtain ⟨key, hkey, htext⟩ := exists_key_of_entityNames (hstands route hroute) name hname
    exact Material.names_or_stamps hkey htext

/-- Each name in a compiled document is written as a key or ends a path of an
applied trait, unless a command has set it: at the top of a document whose root is
what the command leaves, or among the parameters and response codes of a route. -/
theorem Document.namedBy_compile {source : Source} {options : Options} {bundle : Bundle}
    {document : Document} (h : compile source options bundle = .ok document) :
    ∃ root directory, source.load bundle = .ok (root, directory) ∧
      document.NamedBy ⟨bundle, root, options.start directory, document.context.journal⟩ := by
  obtain ⟨root, directory, entries, after, hload, hrun, hbuild⟩ := compile_eq_ok.1 h
  refine ⟨root, directory, hload, namedBy_of_expandRoot ?_ hrun hbuild⟩
  exact fun allowed => ⟨fun _ _ => by rintro ⟨⟩, fun _ _ => by rintro ⟨⟩⟩

/-! ## Parameters that nobody has written -/

/-- A file with a parameter. -/
def idFile : Value :=
  .mapping [(.string "id", .string "int")]

def paramsBundle : Bundle :=
  .ofFiles [(⟨"params.yaml"⟩, "id: int")]

def paramsReference : Reference :=
  ⟨none, "params.yaml", true⟩

/-- A document whose route takes its path parameters from the file. -/
def paramsRoot : Value :=
  .mapping [(.string "users", .mapping
    [(.string "pathParams", .tagged ⟨"include"⟩ (.string "params.yaml"))])]

def stampedParams : Value :=
  .mapping [(.string "id", .string "int"), (.string Keyword.virtualField, .bool true),
    (.string Keyword.noPathField, .bool true)]

def paramsEntries : Mapping :=
  [(.string "users", .mapping [(.string "pathParams", stampedParams)])]

def paramsJournal : List Event :=
  [.resolved paramsReference.location (.ok (some stampedParams)),
    .opened paramsReference.location (.ok "id: int"), .requested paramsReference.location]

def paramsMaterial : Material :=
  ⟨paramsBundle, paramsRoot, Options.start {} none, paramsJournal⟩

theorem read_paramsBundle :
    paramsBundle.read paramsReference.location.toPath = .ok "id: int" :=
  rfl

theorem read_idFile : Yaml.read "id: int" = .ok idFile := by
  have htokens : Yaml.tokens "id: int" = Yaml.entryTokens "id" "int" := by decide +kernel
  exact Yaml.read_entry htokens rfl (by decide) rfl

theorem runFrom_resolve_params {schemas : Schemas} :
    ∃ after, (resolve paramsBundle paramsReference).runFrom { schemas } =
      (.ok (some stampedParams), after) ∧ after.journal = paramsJournal := by
  have hnew : ({ schemas } : Context).inclusions.progress? paramsReference.location = none := rfl
  rw [runFrom_resolve, resolveOnce, runFrom_includeOnce_of_read hnew read_paramsBundle,
    Expansion.runFrom_bind, runFrom_expandText_of_read read_idFile]
  exact ⟨_, rfl, rfl⟩

theorem runFrom_expandRoot_params :
    ∃ after, (expandRoot paramsBundle paramsRoot).runFrom (Options.start {} none) =
      (.ok paramsEntries, after) ∧ after.journal = paramsJournal := by
  let schemas : Schemas := (Schemas.obtain {} none).2
  obtain ⟨after, hresolve, hjournal⟩ := @runFrom_resolve_params schemas
  refine ⟨after, ?_, hjournal⟩
  have hcommand : Schema.command? ⟨none⟩ (Tag.bareName ⟨"include"⟩) = some .includeFile := by
    decide
  rw [paramsReference] at hresolve
  have hexpand : (expand (resolve paramsBundle) ⟨none⟩ paramsRoot).runFrom { schemas } =
      (.ok (some (.mapping paramsEntries)), after) := by
    simp only [paramsRoot, expand, expandEntries, hcommand, Expansion.runFrom_bind,
      Expansion.runFrom_pure, Option.getD_some, Command.accepts, OperandKind.accept, Command.run,
      hresolve]
    rfl
  exact runFrom_expandRoot_eq_ok.2 ⟨_, hexpand, .inl rfl⟩

theorem compile_params :
    ∃ document, compile (.value paramsRoot) {} paramsBundle = .ok document ∧
      document.context.journal = paramsJournal ∧
      ∃ route, document.routes = [route] ∧
        route.details.entityNames = ["id", Keyword.virtualField, Keyword.noPathField] := by
  obtain ⟨after, hrun, hjournal⟩ := runFrom_expandRoot_params
  refine ⟨_, compile_eq_ok.2 ⟨paramsRoot, none, paramsEntries, after, rfl, hrun, rfl⟩, hjournal, ?_⟩
  exact ⟨_, rfl, rfl⟩

theorem not_applies_params (fragment : Mapping) : ¬ paramsMaterial.Applies fragment := by
  intro happlies
  -- The only tag of the root takes in the file, and the file has none.
  cases happlies with
  | inEntry h =>
    cases h with
    | inEntry h =>
      cases h with
      | here hcommand => cases hcommand
      | underTag _ h => cases h
      | @inFile _ _ _ _ _ _ file pathless hcommand hoperand hfile h =>
        simp only [expand] at hoperand
        cases hoperand
        cases hfile
        obtain ⟨-, hread, hroot, -, h⟩ := h
        cases read_paramsBundle.symm.trans hread
        cases read_idFile.symm.trans hroot
        cases h with
        | inEntry h => cases h
        | inEntries _ h => cases h
    | inEntries _ h => cases h
  | inEntries _ h => cases h

theorem mem_parts_params {part : Part} (h : paramsMaterial.Writes part) :
    part ∈ paramsRoot.parts ++ idFile.parts := by
  rw [List.mem_append]
  cases h with
  | inRoot h => exact .inl h
  | inFile hopened hread h =>
    obtain ⟨-, rfl⟩ := by simpa [paramsMaterial, paramsJournal] using hopened
    rw [read_idFile] at hread
    cases hread
    exact .inr h

theorem mem_of_names_params {name : String} (h : paramsMaterial.Names name) :
    name ∈ ["users", "pathParams", "id"] := by
  cases h with
  | target happlies => exact absurd happlies (not_applies_params _)
  | @written key h hname =>
    have hkey : key ∈ [Value.string "users", .string "pathParams", .string "id"] := by
      simpa [paramsRoot, idFile, Value.parts, Value.partsOfEntries] using mem_parts_params h
    simp only [List.mem_cons, List.not_mem_nil, or_false] at hkey ⊢
    rcases hkey with rfl | rfl | rfl
    · exact .inl (Option.some.inj hname).symm
    · exact .inr (.inl (Option.some.inj hname).symm)
    · exact .inr (.inr (Option.some.inj hname).symm)

/-- The names of the document are written, or an inclusion has set them. -/
theorem Document.namedBy_compile_params :
    ∃ document, compile (.value paramsRoot) {} paramsBundle = .ok document ∧
      document.NamedBy paramsMaterial := by
  obtain ⟨document, hcompile, hjournal, -⟩ := compile_params
  obtain ⟨root, directory, hload, hnamed⟩ := namedBy_compile hcompile
  cases hload
  rw [hjournal] at hnamed
  exact ⟨document, hcompile, hnamed⟩

/-- Two of its path parameters are not written anywhere. -/
theorem Document.invented_compile_params :
    ∃ document, compile (.value paramsRoot) {} paramsBundle = .ok document ∧
      document.context.journal = paramsMaterial.journal ∧
      ∃ route ∈ document.routes, ∀ name ∈ [Keyword.virtualField, Keyword.noPathField],
        name ∈ route.details.entityNames ∧ ¬ paramsMaterial.Names name := by
  obtain ⟨document, hcompile, hjournal, route, hroutes, hnames⟩ := compile_params
  refine ⟨document, hcompile, hjournal, route, by simp [hroutes], ?_⟩
  intro name hname
  constructor
  · rw [hnames]
    exact List.mem_cons_of_mem _ hname
  · intro hwritten
    have hdisjoint : ∀ name ∈ [Keyword.virtualField, Keyword.noPathField],
        name ∉ ["users", "pathParams", "id"] := by decide
    exact hdisjoint name hname (mem_of_names_params hwritten)

end Routebook
