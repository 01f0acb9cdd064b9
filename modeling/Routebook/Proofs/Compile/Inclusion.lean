import Routebook.Proofs.Compile.PlainData
import Routebook.Proofs.Expansion.Arrival
import Routebook.Proofs.Yaml.SingleEntry

/-!
# The route of an included file

The route under whose key a file is included only groups the routes of the file.  If
the file is included without its path segment, the route adds nothing to the paths:
the routes of the file have the paths that they would have directly below the route
around it.  If the file is included with its segment, the key comes in between.

This takes three stages.  Expansion stamps the defaults on the content of the file,
the builder reads them as fields of the route, and visits take them over.  The content
must leave the fields alone, and must not be marked as one that can be included again.
-/

namespace Routebook

open Outcome

/-! ## Stamping the defaults -/

section Stamps

variable {content : Mapping}

/-- The fields that decide about the path of the route, when the defaults have been
added to a content that has none of them. -/
theorem exists_withDefaults_eq (pathless : Bool)
    (hvirtual : Mapping.has content Keyword.virtualField = false)
    (hnoPath : Mapping.has content Keyword.noPathField = false)
    (hpath : Mapping.has content "path" = false) :
    ∃ entries, withDefaults pathless (.mapping content) = .mapping entries ∧
      Mapping.get? entries Keyword.virtualField = some (.bool true) ∧
      Mapping.get? entries Keyword.noPathField = (if pathless then some (.bool true) else none) ∧
      Mapping.get? entries "path" = none := by
  let grouped := Mapping.setDefault Keyword.virtualField (.bool true) content
  have hgrouped : Mapping.get? grouped Keyword.virtualField = some (.bool true) :=
    Mapping.get?_setDefault_self hvirtual _
  have hother : ∀ name, Keyword.virtualField ≠ name → Mapping.has content name = false →
      Mapping.get? grouped name = none := by
    intro name hne hname
    rw [Mapping.get?_setDefault_of_ne hne, Mapping.get?_eq_none_iff.2 hname]
  have hnone : Mapping.get? grouped Keyword.noPathField = none := hother _ (by decide) hnoPath
  cases pathless with
  | false => exact ⟨grouped, rfl, hgrouped, hnone, hother _ (by decide) hpath⟩
  | true =>
    refine ⟨Mapping.setDefault Keyword.noPathField (.bool true) grouped, rfl,
      Mapping.get?_setDefault_of_some hgrouped _ _, ?_, ?_⟩
    · exact Mapping.get?_setDefault_self (Mapping.get?_eq_none_iff.1 hnone) _
    · rw [Mapping.get?_setDefault_of_ne (by decide)]
      exact hother _ (by decide) hpath

variable {bundle : Bundle} {schema : Schema} {tag : Tag} {file text : String} {pathless : Bool}
  {location : Location} {context after : Context}

/-- The first reference to a file comes to its content with the defaults. -/
theorem exists_runFrom_resolve {reference : Reference}
    (hnew : context.inclusions.progress? reference.location = none)
    (hread : bundle.read reference.location.toPath = .ok text)
    (hcontent : (expandText (resolve bundle) reference.location text).runFrom
      (context.enter reference.location (.ok text)) = (.ok (some (.mapping content)), after))
    (hmark : Mapping.has content Keyword.reusable = false) :
    ∃ last, (resolve bundle reference).runFrom context =
      (.ok (some (withDefaults reference.pathless (.mapping content))), last) := by
  have honce : ¬ isReusable (.mapping content) := by
    simp [isReusable, Mapping.get?_eq_none_iff.2 hmark]
  rw [runFrom_resolve, resolveOnce, runFrom_includeOnce_of_read hnew hread, hread,
    Expansion.runFrom_bind, hcontent]
  dsimp only
  rw [runFrom_settle_of_once reference honce]
  exact ⟨_, rfl⟩

theorem exists_runFrom_expand_inclusion
    (htag : tag.bareName = (Command.inclusion pathless).name)
    (hlocation : Location.ofReference schema.directory ⟨file⟩ = location)
    (hnew : context.inclusions.progress? location = none)
    (hread : bundle.read location.toPath = .ok text)
    (hcontent : (expandText (resolve bundle) location text).runFrom
      (context.enter location (.ok text)) = (.ok (some (.mapping content)), after))
    (hmark : Mapping.has content Keyword.reusable = false) :
    ∃ last, (expand (resolve bundle) schema (.tagged tag (.string file))).runFrom context =
      (.ok (some (withDefaults pathless (.mapping content))), last) := by
  subst hlocation
  have hcommand : schema.command? tag.bareName = some (.inclusion pathless) := by
    rw [htag]
    cases pathless <;> rfl
  have hscalar : (Command.inclusion pathless).accepts = .scalar := by cases pathless <;> rfl
  have hrun : (Command.inclusion pathless).run (resolve bundle) schema (.scalar file) =
      resolve bundle ⟨schema.directory, file, pathless⟩ := by cases pathless <;> rfl
  rw [runFrom_expand_scalar hcommand hscalar, hrun]
  exact exists_runFrom_resolve hnew hread hcontent hmark

end Stamps

/-! ## Building the route -/

/-- Whether a route groups the routes of a file that is included under a name: it is not
documented itself, and its segment is the name, unless the file is included without it. -/
structure Route.Groups (route : Route) (name : String) (pathless : Bool) : Prop where
  name_eq : route.name = name
  isVirtual_eq : route.details.isVirtual = true
  noPath_eq : route.details.noPath = pathless
  path_eq : route.details.path = if pathless then none else some (.segment name)

theorem groups_of_buildRoute {parent : Scope} {route : Route} {name : String} {pathless : Bool}
    {entries : Mapping} (hbuild : buildRoute parent name none (.mapping entries) = .ok route)
    (hvirtual : Mapping.get? entries Keyword.virtualField = some (.bool true))
    (hnoPath : Mapping.get? entries Keyword.noPathField =
      (if pathless then some (.bool true) else none))
    (hpath : Mapping.get? entries "path" = none) : route.Groups name pathless := by
  have hdetails := read_of_buildRoute hbuild rfl
  have hread := RouteDetails.readFrom_of_read hdetails
  obtain ⟨hisVirtual, hflag⟩ := RouteDetails.flags_of_read hdetails
  have hnoPathFlag : route.details.noPath = pathless := by
    cases pathless with
    | false => exact Except.ok.inj (hflag.symm.trans (Fields.flag_eq_false hnoPath))
    | true => exact Except.ok.inj (hflag.symm.trans (Fields.flag_eq_of_bool hnoPath))
  obtain ⟨own, hown, hdefault⟩ := hread.path
  have hvalue : Fields.value? ⟨.route, parent.child name, promoted none entries⟩ "path" = none :=
    Fields.value?_eq_none hpath
  obtain rfl : none = own := by
    rw [RouteDetails.readPath, hvalue] at hown
    exact Except.ok.inj hown
  refine ⟨hread.name_eq, ?_, hnoPathFlag, ?_⟩
  · exact Except.ok.inj (hisVirtual.symm.trans (Fields.flag_eq_of_bool hvirtual))
  · rw [hdefault, hnoPathFlag]
    cases pathless <;> rfl

/-- What a route that groups the routes of a file adds to the path. -/
theorem Route.Groups.ownSegments_eq {route : Route} {name : String} {pathless : Bool}
    (h : route.Groups name pathless) :
    Visit.ownSegments route =
      if pathless then [] else [Text.trim '/' name].filter fun segment => segment != "" := by
  rw [Visit.ownSegments, h.path_eq]
  cases pathless <;> rfl

/-! ## From the root of the document to the visits -/

/-- A document that is compiled from a mapping is built from what its entries come to. -/
theorem exists_of_compile {source : Source} {options : Options} {bundle : Bundle} {root : Mapping}
    {directory : Option Path} {document : Document}
    (hload : source.load bundle = .ok (.mapping root, directory))
    (hcompile : compile source options bundle = .ok document) :
    ∃ entries after, (expandEntries (resolve bundle) ⟨(options.start directory).configDir⟩
        root).runFrom (options.entered directory) = (.ok entries, after) ∧
      Document.build entries after = .ok document := by
  obtain ⟨_, _, entries, after, hload', hroot, hbuild⟩ := compile_eq_ok.1 hcompile
  obtain ⟨rfl, rfl⟩ := Prod.mk.inj (Except.ok.inj (hload'.symm.trans hload))
  obtain ⟨value, hrun, hvalue⟩ := runFrom_expandRoot_start.1 hroot
  rw [expand] at hrun
  obtain ⟨expanded, after, hentries, hrun⟩ := Expansion.runFrom_bind_eq_ok hrun
  cases hrun
  obtain rfl : expanded = entries := by simpa using hvalue
  exact ⟨expanded, after, hentries, hbuild⟩

section Documents

variable {source : Source} {options : Options} {bundle : Bundle} {root content : Mapping}
  {directory : Option Path} {document : Document} {key : Value} {tag : Tag}
  {file name text : String} {pathless : Bool} {location : Location} {position : List Nat}
  {innermost : Level} {reached after : Context}

/-- A file that is included under a key of the root document, below mappings that stand
for routes, is grouped by a route without a segment or with the key as its segment.  The
routes of the file are virtual, and their paths are those of the route around the key,
with the key in between if it is the segment, and the segments of the routes in the file.

This is about the first reference to the file, and a content that is a mapping without
the fields in question. -/
theorem compile_inclusion (hload : source.load bundle = .ok (.mapping root, directory))
    (hcompile : compile source options bundle = .ok document)
    (harrives : Arrives (resolve bundle) ⟨(options.start directory).configDir⟩
      (key, .tagged tag (.string file)) .document root (options.entered directory) position
      innermost reached)
    (hrole : innermost.role key (.tagged tag (.string file)) = .child name none)
    (htag : tag.bareName = (Command.inclusion pathless).name)
    (hlocation : Location.ofReference (options.start directory).configDir ⟨file⟩ = location)
    (hfirst : .requested location ∉ reached.journal)
    (hread : bundle.read location.toPath = .ok text)
    (hcontent : (expandText (resolve bundle) location text).runFrom
      (reached.enter location (.ok text)) = (.ok (some (.mapping content)), after))
    (hlacks : ∀ field ∈ [Keyword.reusable, Keyword.virtualField, Keyword.noPathField, "path"],
      Mapping.has content field = false) :
    ∃ own ∈ document.visits, document.VisitsAt position own ∧ own.route.Groups name pathless ∧
      ∀ visit below, document.VisitsAt (position ++ below) visit →
        visit.isVirtual ∧ ∃ inside, Route.along? own.route.routes below = some inside ∧
          visit.path = Visit.extendPath own.outerPath
            ((if pathless then [] else [Text.trim '/' name].filter fun segment => segment != "") ++
              inside.flatMap Visit.ownSegments) := by
  obtain ⟨entries, last, hentries, hbuild⟩ := exists_of_compile hload hcompile
  have hnew : reached.inclusions.progress? location = none :=
    harrives.progress?_eq_none (traces_resolve bundle) rfl hfirst
  obtain ⟨_, hexpand⟩ := exists_runFrom_expand_inclusion htag hlocation hnew hread hcontent
    (hlacks _ (by simp))
  obtain ⟨stamped, hstamped, hvirtual, hnoPath, hpath⟩ := exists_withDefaults_eq pathless
    (hlacks _ (by simp)) (hlacks _ (by simp)) (hlacks _ (by simp))
  rw [hstamped] at hexpand
  have hchild : innermost.role key (.mapping stamped) = .child name none := by
    rw [← hrole]
    exact Level.role_eq_of_isNull_eq rfl innermost key
  have hstarts : innermost.startsRoute (key, .mapping stamped) := by
    rw [Level.startsRoute_eq, hchild]
  have hleads := harrives.leads hentries hexpand hstarts
  have hmirror := (allMirror_of_buildRoutes entries _ _ _ (Document.buildRoutes_of_build hbuild)).1
  obtain ⟨around, route, hstands, hname, hroute⟩ := hmirror.exists_standsAt hleads
  obtain ⟨hkey, hpromotion, -⟩ := Level.of_role_child hchild
  obtain rfl : name = route.name := Option.some.inj (hkey.symm.trans hname)
  have hgroups : route.Groups route.name pathless :=
    groups_of_buildRoute (hpromotion ▸ hroute .root) hvirtual hnoPath hpath
  have hown := Document.visitsAt_of_standsAt hstands
  refine ⟨_, Document.mem_visits_iff.2 ⟨rfl, position, hstands⟩, hown, hgroups, ?_⟩
  intro visit below hvisit
  obtain ⟨inside, hinside, hway⟩ := hown.exists_inside hvisit
  refine ⟨Visit.isVirtual_of_inside hway hgroups.isVirtual_eq, inside, hinside, ?_⟩
  rw [Visit.path_of_inside hway, hgroups.ownSegments_eq]

end Documents

/-! ## Users in a file of their own -/

def listText : String := "list: All"

/-- A file with a route. -/
def listFile : Mapping :=
  [(.string "list", .string "All")]

def listBundle : Bundle :=
  .ofFiles [(⟨"users.yaml"⟩, listText)]

def listLocation : Location :=
  .ofReference none ⟨"users.yaml"⟩

def usersInclusion : Value × Value :=
  (.string "users", .tagged ⟨"include"⟩ (.string "users.yaml"))

/-- A shop with the users from the file. -/
def shopRoot : Mapping :=
  [(.string "title", .string "Shop"), (.string "shop", .mapping [usersInclusion])]

def shopEntries : Mapping :=
  [(.string "title", .string "Shop"),
    (.string "shop", .mapping [(.string "users", withDefaults true (.mapping listFile))])]

theorem read_listBundle : listBundle.read listLocation.toPath = .ok listText :=
  rfl

theorem read_listText : Yaml.read listText = .ok (.mapping listFile) := by
  have htokens : Yaml.tokens listText = Yaml.entryTokens "list" "All" := by decide +kernel
  exact Yaml.read_entry htokens rfl (by decide) rfl

theorem exists_runFrom_expandText_list :
    ∃ after, (expandText (resolve listBundle) listLocation listText).runFrom
      ((Options.entered {} none).enter listLocation (.ok listText)) =
        (.ok (some (.mapping listFile)), after) := by
  rw [runFrom_expandText_of_read read_listText]
  exact ⟨_, rfl⟩

theorem arrives_usersInclusion :
    Arrives (resolve listBundle) ⟨none⟩ usersInclusion .document shopRoot (Options.entered {} none)
      [0, 0] .route (Options.entered {} none) := by
  have hinner : Arrives (resolve listBundle) ⟨none⟩ usersInclusion .route ([] ++ [usersInclusion])
      (Options.entered {} none) [0] .route (Options.entered {} none) :=
    @Arrives.here _ _ _ .route [] [] [] _ _ rfl
  have htitle : (expandEntries (resolve listBundle) ⟨none⟩
      [(.string "title", .string "Shop")]).runFrom (Options.entered {} none) =
        (.ok [(.string "title", .string "Shop")], Options.entered {} none) := rfl
  exact @Arrives.inside _ _ _ .document .route _ [] _ _ _ _ _ _ _ htitle rfl hinner

theorem compile_shop :
    ∃ document, compile (.value (.mapping shopRoot)) {} listBundle = .ok document ∧
      document.visits.map (fun visit => (visit.path, visit.isVirtual)) =
        [("/shop", false), ("/shop", true), ("/shop/list", true)] := by
  obtain ⟨after, hcontent⟩ := exists_runFrom_expandText_list
  obtain ⟨last, husers⟩ := @exists_runFrom_expand_inclusion listFile listBundle ⟨none⟩ ⟨"include"⟩
    "users.yaml" listText true listLocation (Options.entered {} none) after (by decide) rfl rfl
    read_listBundle hcontent (by decide)
  have hrun : (expand (resolve listBundle) ⟨none⟩ (.mapping shopRoot)).runFrom
      (Options.entered {} none) = (.ok (some (.mapping shopEntries)), last) := by
    rw [shopRoot, usersInclusion]
    generalize Value.tagged ⟨"include"⟩ (.string "users.yaml") = reference at husers
    simp only [expand, expandEntries, Expansion.runFrom_bind, Expansion.runFrom_pure, husers]
    rfl
  have hroot := (@runFrom_expandRoot_start listBundle {} none _ shopEntries last).2
    ⟨_, hrun, .inl rfl⟩
  exact ⟨_, compile_eq_ok.2 ⟨_, none, shopEntries, last, rfl, hroot, rfl⟩, rfl⟩

/-- The route for the file is there, and the path of the list says nothing about it. -/
theorem compile_inclusion_shop :
    ∃ document, compile (.value (.mapping shopRoot)) {} listBundle = .ok document ∧
      (∃ own ∈ document.visits, document.VisitsAt [0, 0] own ∧ own.route.Groups "users" true) ∧
      document.visits.map (fun visit => (visit.path, visit.isVirtual)) =
        [("/shop", false), ("/shop", true), ("/shop/list", true)] := by
  obtain ⟨document, hcompile, hvisits⟩ := compile_shop
  obtain ⟨after, hcontent⟩ := exists_runFrom_expandText_list
  have hrole : Level.route.role usersInclusion.1 usersInclusion.2 = .child "users" none := by
    decide
  have htag : Tag.bareName ⟨"include"⟩ = (Command.inclusion true).name := by decide
  obtain ⟨own, hown, hat, hgroups, -⟩ := compile_inclusion rfl hcompile arrives_usersInclusion
    hrole htag rfl List.not_mem_nil read_listBundle hcontent (by decide)
  exact ⟨document, hcompile, ⟨own, hown, hat, hgroups⟩, hvisits⟩

end Routebook
