import Routebook.Proofs.Route.Alike

/-!
# A null field is an absent field

Null stands for nothing in a field, so that a field that is null can be left out
without a difference to what is built, whichever entity it belongs to and however
deep that entity stands in the document.

The path of a route under a promoted key is the exception.  The promotion lets such a
route share the path of the route around it, but only if its path is absent.  If it is
null the promotion adds nothing, and the route is left with its key as its path.
-/

namespace Routebook

/-! ## Leaving out one field -/

/-- Whether the second mapping is the first one without one field that is null.  It
may be a field of the entity itself, of a nested entity or of a route below, but not
the path of a promoted route. -/
inductive EntityKind.OmitsNull : EntityKind → Option Promotion → Mapping → Mapping → Prop
  | field {kind : EntityKind} {promotion : Option Promotion} {entries : Mapping} {name : String} :
      kind.hasField name → Mapping.get? entries name = some .null →
      (promotion.isSome → name ≠ "path") →
      OmitsNull kind promotion entries (Mapping.erase entries name)
  | nested {kind inner : EntityKind} {promotion : Option Promotion} {entries : Mapping}
      {field : Field} {around : Mapping → Value} {own own' : Mapping} :
      field ∈ kind.fields → nested? field.name = some inner → field.shape.Around around →
      Mapping.get? entries field.name = some (around own) → OmitsNull inner none own own' →
      OmitsNull kind promotion entries (Mapping.set field.name (around own') entries)
  | child {level : Level} {promotion inner : Option Promotion} {key : Value} {name : String}
      {own own' : Mapping} (before after : Mapping) :
      level.role key (.mapping own) = .child name inner → OmitsNull .route inner own own' →
      OmitsNull level.kind promotion (before ++ (key, .mapping own) :: after)
        (before ++ (key, .mapping own') :: after)

namespace EntityKind

theorem alike_erase_null {kind : EntityKind} {entries : Mapping} {name : String}
    (h : Mapping.get? entries name = some .null) :
    kind.Alike entries (Mapping.erase entries name) := by
  intro field _
  by_cases hname : name = field.name
  · rw [← hname, h, Mapping.get?_erase_self]
    exact .null
  · rw [Mapping.get?_erase_of_ne hname]
    exact .refl _

/-- Leaving out a null field makes no difference to what is built. -/
theorem OmitsNull.buildsAlike {kind : EntityKind} {promotion : Option Promotion}
    {entries entries' : Mapping} (h : kind.OmitsNull promotion entries entries') :
    kind.BuildsAlike promotion entries entries' := by
  induction h with
  | field hfield hnull hpath =>
    refine (alike_erase_null hnull).buildsAlike (fun _ => (rest_erase hfield _).symm) ?_
    intro hsome
    exact (Mapping.get?_erase_of_ne (hpath hsome) _).symm
  | nested hfield hnested haround hget _ ih =>
    exact buildsAlike_set hfield hnested haround hget ih _
  | child before after hrole _ ih => exact Level.buildsAlike_child hrole ih before after _

end EntityKind

/-- A document is the same without a field that is null, or fails to be built with
the same fault. -/
theorem Document.build_omitsNull {entries entries' : Mapping}
    (h : EntityKind.document.OmitsNull none entries entries') (context : Context) :
    build entries context = build entries' context :=
  h.buildsAlike context

/-- Users may be missing. -/
def missingCodes (code : Mapping) : Mapping :=
  [(.string "responseCodes", .mapping [(.number (.int 404), .mapping code)])]

/-- Users can be got, and may be missing. -/
def missingRoot (code : Mapping) : Mapping :=
  [(.string "users", .mapping [(.string "GET", .mapping (missingCodes code))])]

theorem Document.build_omitsNull_missing :
    EntityKind.document.OmitsNull none (missingRoot [(.string "description", .null)])
        (missingRoot []) ∧
      build (missingRoot [(.string "description", .null)]) {} = build (missingRoot []) {} := by
  have hcode : EntityKind.responseCode.OmitsNull none [(.string "description", .null)]
      (Mapping.erase [(.string "description", .null)] "description") :=
    .field rfl rfl (by decide)
  have hfield : ⟨"responseCodes", .entityMap⟩ ∈ EntityKind.route.fields := by decide
  have haround := FieldShape.Around.entityMap [] (.number (.int 404)) []
  have hget := @EntityKind.OmitsNull.nested .route _ (some ⟨"GET", "http"⟩)
    (missingCodes [(.string "description", .null)]) _ _ _ _ hfield rfl haround rfl hcode
  have husers := @EntityKind.OmitsNull.child .route none _ (.string "GET") _ _ _ [] [] rfl hget
  have hroot : EntityKind.document.OmitsNull none (missingRoot [(.string "description", .null)])
      (missingRoot []) :=
    @EntityKind.OmitsNull.child .document none _ (.string "users") _ _ _ [] [] rfl husers
  exact ⟨hroot, build_omitsNull hroot {}⟩

/-! ## Paths under promoted keys -/

section Paths

variable {parent : Scope} {name : String} {promotion : Promotion} {entries : Mapping}
  {route : Route}

/-- A promoted route without a path shares the path of the route around it. -/
theorem path_of_promoted_absent (hfield : promotion.field ≠ "path")
    (hpath : Mapping.get? entries "path" = none)
    (h : buildRoute parent name (some promotion) (.mapping entries) = .ok route) :
    route.details.path = some .shared := by
  have hstamp : Mapping.get? (promotion.stamp entries) "path" = some (.bool false) := by
    rw [get?_stamp, if_neg (Ne.symm hfield), if_pos rfl, hpath, Option.getD_none]
  obtain ⟨own, hown, hroute⟩ := (RouteDetails.readFrom_of_read (read_of_buildRoute h rfl)).path
  rw [RouteDetails.readPath, Fields.value?, Fields.raw?, promoted, hstamp] at hown
  obtain rfl : some .shared = own := Except.ok.inj hown
  exact hroute

/-- A promoted route with a path that is null has its key as its path, unless it says
that it has none. -/
theorem path_of_promoted_null (hfield : promotion.field ≠ "path")
    (hpath : Mapping.get? entries "path" = some .null)
    (h : buildRoute parent name (some promotion) (.mapping entries) = .ok route) :
    route.details.path = if route.details.noPath then none else some (.segment name) := by
  have hstamp : Mapping.get? (promotion.stamp entries) "path" = some .null := by
    rw [get?_stamp, if_neg (Ne.symm hfield), if_pos rfl, hpath, Option.getD_some]
  obtain ⟨own, hown, hroute⟩ := (RouteDetails.readFrom_of_read (read_of_buildRoute h rfl)).path
  rw [RouteDetails.readPath, Fields.value?, Fields.raw?, promoted, hstamp] at hown
  obtain rfl : none = own := Except.ok.inj hown
  rw [hroute]
  cases route.details.noPath <;> rfl

end Paths

/-- Users can be got, with the given fields. -/
def gettableRoot (fields : Mapping) : Mapping :=
  [(.string "users", .mapping [(.string "GET", .mapping fields)])]

/-- The paths of the routes below those on top. -/
def Document.innerPaths (document : Document) : List (Option RoutePath) :=
  document.routes.flatMap fun route => route.routes.map fun inner => inner.details.path

/-- Without its null path, the route to get users with is another one. -/
theorem Document.innerPaths_build_gettable :
    (build (gettableRoot [(.string "path", .null)]) {}).map innerPaths =
        .ok [some (.segment "GET")] ∧
      (build (gettableRoot (Mapping.erase [(.string "path", .null)] "path")) {}).map innerPaths =
        .ok [some .shared] :=
  ⟨rfl, rfl⟩

end Routebook
