import Mathlib.Tactic.FinCases
import Routebook.Proofs.Route.Alike

/-!
# Where a field stands makes no difference

An entity is built from the values of its fields.  Nothing else of a parameter or any
other leaf is read, so that foreign entries and the order of the fields do not matter.
A document and a route have options and routes besides.  These are read in order from
the entries that are not fields, wherever the fields stand among them.

It follows by induction that the entries can be rearranged in nested entities and in
routes below too, at any number of places, before the document around them is built.
-/

namespace Routebook

/-! ## Rearranged entries -/

namespace EntityKind

/-- Whether two mappings have the same fields.  As documents or routes they also have
the same other entries in the same order. -/
structure Agree (kind : EntityKind) (entries entries' : Mapping) : Prop where
  fields : ∀ field ∈ kind.fields,
    Mapping.get? entries field.name = Mapping.get? entries' field.name
  rest : kind = .document ∨ kind = .route → kind.rest entries = kind.rest entries'

/-- Whether one mapping becomes another by rearrangement of its own entries, of those of
nested entities and of those of routes below. -/
inductive Rearranged : EntityKind → Mapping → Mapping → Prop
  | agree {kind : EntityKind} {entries entries' : Mapping} :
      kind.Agree entries entries' → Rearranged kind entries entries'
  | nested {kind inner : EntityKind} {entries : Mapping} {field : Field}
      {around : Mapping → Value} {own own' : Mapping} :
      field ∈ kind.fields → nested? field.name = some inner → field.shape.Around around →
      Mapping.get? entries field.name = some (around own) → Rearranged inner own own' →
      Rearranged kind entries (Mapping.set field.name (around own') entries)
  | child {level : Level} {key : Value} {name : String} {promotion : Option Promotion}
      {own own' : Mapping} (before after : Mapping) :
      level.role key (.mapping own) = .child name promotion → Rearranged .route own own' →
      Rearranged level.kind (before ++ (key, .mapping own) :: after)
        (before ++ (key, .mapping own') :: after)
  | trans {kind : EntityKind} {entries entries' entries'' : Mapping} :
      Rearranged kind entries entries' → Rearranged kind entries' entries'' →
      Rearranged kind entries entries''

/-! ## What is built -/

section Building

variable {kind : EntityKind} {promotion : Option Promotion} {entries entries' : Mapping}

theorem BuildsAlike.trans {entries'' : Mapping} (h : kind.BuildsAlike promotion entries entries')
    (h' : kind.BuildsAlike promotion entries' entries'') :
    kind.BuildsAlike promotion entries entries'' := by
  cases kind with
  | document => exact fun context => (h context).trans (h' context)
  | route => exact fun parent name => (h parent name).trans (h' parent name)
  | parameter => exact fun scope => (h scope).trans (h' scope)
  | responseCode => exact fun scope => (h scope).trans (h' scope)
  | «example» => exact fun scope => (h scope).trans (h' scope)
  | test => exact fun scope => (h scope).trans (h' scope)
  | request => exact fun scope => (h scope).trans (h' scope)
  | response => exact fun scope => (h scope).trans (h' scope)

/-- The path is a field of every entity that can be promoted. -/
theorem Agree.buildsAlike (h : kind.Agree entries entries') (promotion : Option Promotion) :
    kind.BuildsAlike promotion entries entries' := by
  have halike : kind.Alike entries entries' := by
    intro field hfield
    rw [h.fields field hfield]
    exact .refl _
  cases kind with
  | route => exact halike.buildsAlike h.rest fun _ => h.fields ⟨"path", .value⟩ (by decide)
  | _ => exact @Alike.buildsAlike _ _ none _ halike h.rest nofun

/-- From rearranged entries the same is built, or building fails with the same fault. -/
theorem buildsAlike_of_rearranged (h : kind.Rearranged entries entries')
    (promotion : Option Promotion) : kind.BuildsAlike promotion entries entries' := by
  induction h generalizing promotion with
  | agree hagree => exact hagree.buildsAlike promotion
  | nested hfield hnested haround hget _ ih =>
    exact buildsAlike_set hfield hnested haround hget (ih none) promotion
  | child before after hrole _ ih =>
    exact Level.buildsAlike_child hrole (ih _) before after promotion
  | trans _ _ ih ih' => exact (ih promotion).trans (ih' promotion)

end Building

/-- There are no orders. -/
def noOrders : Mapping :=
  [(.string "success", .bool false), (.string "description", .string "No orders")]

/-- There are no orders, in another order and with a foreign entry. -/
def noOrdersNoted : Mapping :=
  [(.string "description", .string "No orders"), (.string "since", .number (.int 2)),
    (.string "success", .bool false)]

/-- Orders can be got, unless there are none. -/
def gettableOrders (code : Mapping) : Value × Value :=
  (.string "GET", .mapping
    [(.string "responseCodes", .mapping [(.number (.int 404), .mapping code)])])

/-- A shop in which the fields stand before the routes. -/
def shopFieldsFirst : Mapping :=
  [(.string "title", .string "Shop"),
    (.string "orders", .mapping [(.string "description", .string "All"), gettableOrders noOrders])]

/-- A shop in which the fields stand after the routes. -/
def shopFieldsLast : Mapping :=
  [(.string "orders", .mapping
      [gettableOrders noOrdersNoted, (.string "description", .string "All")]),
    (.string "title", .string "Shop")]

theorem buildsAlike_of_rearranged_shop :
    EntityKind.document.Rearranged shopFieldsFirst shopFieldsLast ∧
      EntityKind.document.BuildsAlike none shopFieldsFirst shopFieldsLast := by
  have hcode : EntityKind.responseCode.Rearranged noOrders noOrdersNoted :=
    .agree ⟨by intro field hfield; fin_cases hfield <;> rfl, nofun⟩
  have hfield : ⟨"responseCodes", .entityMap⟩ ∈ EntityKind.route.fields := by decide
  have haround := FieldShape.Around.entityMap [] (.number (.int 404)) []
  have hget := @Rearranged.nested .route _
    [(.string "responseCodes", .mapping [(.number (.int 404), .mapping noOrders)])]
    _ _ _ _ hfield rfl haround rfl hcode
  have hinside := @Rearranged.child .route (.string "GET") _ _ _ _
    [(.string "description", .string "All")] [] rfl hget
  have horders : EntityKind.route.Rearranged
      [(.string "description", .string "All"), gettableOrders noOrdersNoted]
      [gettableOrders noOrdersNoted, (.string "description", .string "All")] :=
    .agree ⟨by intro field hfield; fin_cases hfield <;> rfl, fun _ => rfl⟩
  have htitled := @Rearranged.child .document (.string "orders") _ _ _ _
    [(.string "title", .string "Shop")] [] rfl (.trans hinside horders)
  have hshop : EntityKind.document.Rearranged shopFieldsFirst shopFieldsLast :=
    .trans htitled (.agree ⟨by intro field hfield; fin_cases hfield <;> rfl, fun _ => rfl⟩)
  exact ⟨hshop, buildsAlike_of_rearranged hshop none⟩

end EntityKind

end Routebook
