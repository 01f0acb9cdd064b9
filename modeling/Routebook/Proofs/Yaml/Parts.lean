import Routebook.Yaml.Mapping

/-!
# The parts of a value

The tags and the keys that a value is made of, wherever they stand in value
position: at the root, under a tag, as the value of an entry or as an item.  What
a key itself is made of is not looked at.

`MadeOf` says that all parts satisfy a condition.  The operations on mappings
keep it, as long as the keys that they add satisfy it.  A value is plain if none
of its parts is a tag.
-/

namespace Routebook

/-- A tag or a key of a value. -/
inductive Part
  | tag (tag : Tag)
  | key (key : Value)

namespace Value

mutual

/-- The parts of a value, in order. -/
def parts : Value → List Part
  | .tagged tag value => .tag tag :: parts value
  | .mapping entries => partsOfEntries entries
  | .sequence items => partsOfItems items
  | .null | .bool _ | .number _ | .string _ => []

/-- The parts of the entries of a mapping. -/
def partsOfEntries : Mapping → List Part
  | [] => []
  | (key, value) :: rest => .key key :: (parts value ++ partsOfEntries rest)

/-- The parts of the items of a sequence. -/
def partsOfItems : List Value → List Part
  | [] => []
  | item :: rest => parts item ++ partsOfItems rest

end

/-- Whether all parts of a value satisfy a condition. -/
def MadeOf (allowed : Part → Prop) (value : Value) : Prop :=
  ∀ part ∈ value.parts, allowed part

/-- Whether a part is no tag. -/
def Untagged : Part → Prop
  | .tag _ => False
  | .key _ => True

/-- Whether no tag stands in value position. -/
def Plain (value : Value) : Prop :=
  value.MadeOf Untagged

end Value

/-- Whether all parts of the entries of a mapping satisfy a condition. -/
def Mapping.MadeOf (allowed : Part → Prop) (entries : Mapping) : Prop :=
  ∀ entry ∈ entries, allowed (.key entry.1) ∧ entry.2.MadeOf allowed

section Shapes

variable {allowed : Part → Prop} {value : Value} {entries : Mapping} {items : List Value}

theorem Value.madeOf_tagged {tag : Tag} :
    (Value.tagged tag value).MadeOf allowed ↔ allowed (.tag tag) ∧ value.MadeOf allowed := by
  simp [MadeOf, parts]

@[simp] theorem Mapping.madeOf_nil : Mapping.MadeOf allowed [] := by
  simp [Mapping.MadeOf]

theorem Mapping.madeOf_cons {key : Value} :
    Mapping.MadeOf allowed ((key, value) :: entries) ↔
      allowed (.key key) ∧ value.MadeOf allowed ∧ Mapping.MadeOf allowed entries := by
  simp [Mapping.MadeOf, and_assoc]

theorem Value.madeOf_mapping :
    (Value.mapping entries).MadeOf allowed ↔ Mapping.MadeOf allowed entries := by
  rw [MadeOf, parts]
  induction entries with
  | nil => simp [partsOfEntries]
  | cons entry rest ih =>
    obtain ⟨key, value⟩ := entry
    rw [Mapping.madeOf_cons, ← ih, partsOfEntries, MadeOf]
    simp only [List.forall_mem_cons, List.forall_mem_append]

theorem Value.madeOf_sequence :
    (Value.sequence items).MadeOf allowed ↔ ∀ item ∈ items, item.MadeOf allowed := by
  rw [MadeOf, parts]
  induction items with
  | nil => simp [partsOfItems]
  | cons item rest ih =>
    rw [List.forall_mem_cons, ← ih, partsOfItems, MadeOf, List.forall_mem_append]

theorem Value.madeOf_of_parts_eq_nil (h : value.parts = []) : value.MadeOf allowed := by
  simp [MadeOf, h]

@[simp] theorem Value.madeOf_null : Value.null.MadeOf allowed :=
  madeOf_of_parts_eq_nil rfl

@[simp] theorem Value.madeOf_bool (b : Bool) : (Value.bool b).MadeOf allowed :=
  madeOf_of_parts_eq_nil rfl

@[simp] theorem Value.madeOf_string (text : String) : (Value.string text).MadeOf allowed :=
  madeOf_of_parts_eq_nil rfl

/-- The mapping that a value is, under tags or not, has no other parts. -/
theorem Value.MadeOf.mapping? (h : value.MadeOf allowed)
    (hentries : value.mapping? = some entries) :
    Mapping.MadeOf allowed entries := by
  induction value using Value.untagged.induct with
  | case1 tag value ih => exact ih (madeOf_tagged.1 h).2 hentries
  | case2 value hvalue =>
    cases value with
    | mapping own =>
      obtain rfl : own = entries := by simpa [Value.mapping?, untagged] using hentries
      exact madeOf_mapping.1 h
    | tagged tag value => exact absurd rfl (hvalue tag value)
    | _ => simp [Value.mapping?, untagged] at hentries

end Shapes

/-! ## What operations on mappings make -/

namespace Mapping.MadeOf

variable {allowed : Part → Prop} {entries added : Mapping} {key value : Value} {name : String}

theorem subset (h : MadeOf allowed entries) (hsub : added ⊆ entries) : MadeOf allowed added :=
  fun entry hentry => h entry (hsub hentry)

theorem append (h : MadeOf allowed entries) (hadded : MadeOf allowed added) :
    MadeOf allowed (entries ++ added) := by
  intro entry hentry
  rcases List.mem_append.1 hentry with hentry | hentry
  · exact h entry hentry
  · exact hadded entry hentry

theorem erase (h : MadeOf allowed entries) (name : String) :
    MadeOf allowed (Mapping.erase entries name) :=
  h.subset fun _ hentry => (List.mem_filter.1 hentry).1

theorem addAbsent (h : MadeOf allowed entries) (hadded : MadeOf allowed added) :
    MadeOf allowed (Mapping.addAbsent entries added) := by
  intro entry hentry
  rcases mem_addAbsent hentry with hentry | hentry
  · exact h entry hentry
  · exact hadded entry hentry

theorem writeFirst (h : MadeOf allowed entries) (condition : Value → Bool)
    (hvalue : value.MadeOf allowed) :
    MadeOf allowed (Mapping.writeFirst condition value entries) := by
  induction entries with
  | nil => exact h
  | cons entry rest ih =>
    obtain ⟨first, old⟩ := entry
    obtain ⟨hfirst, hold, hrest⟩ := madeOf_cons.1 h
    rw [Mapping.writeFirst]
    split
    · exact madeOf_cons.2 ⟨hfirst, hvalue, hrest⟩
    · exact madeOf_cons.2 ⟨hfirst, hold, ih hrest⟩

theorem add (h : MadeOf allowed entries) (hkey : allowed (.key key))
    (hvalue : value.MadeOf allowed) : MadeOf allowed (entries ++ [(key, value)]) :=
  h.append (madeOf_cons.2 ⟨hkey, hvalue, madeOf_nil⟩)

theorem insert (h : MadeOf allowed entries) (hkey : allowed (.key key))
    (hvalue : value.MadeOf allowed) : MadeOf allowed (Mapping.insert key value entries) := by
  rcases insert_eq_or key value entries with hinsert | hinsert
  · rw [hinsert]
    exact h.writeFirst _ hvalue
  · rw [hinsert]
    exact h.add hkey hvalue

theorem setDefault (h : MadeOf allowed entries) (hkey : allowed (.key (.string name)))
    (hvalue : value.MadeOf allowed) : MadeOf allowed (Mapping.setDefault name value entries) := by
  rw [Mapping.setDefault]
  split
  · exact h
  · exact h.add hkey hvalue

/-- A field that is found has an allowed key and an allowed value. -/
theorem of_get? (h : MadeOf allowed entries) (hget : get? entries name = some value) :
    allowed (.key (.string name)) ∧ value.MadeOf allowed := by
  obtain ⟨entry, hfind, rfl⟩ := Option.map_eq_some_iff.1 hget
  have hname : entry.1.isName name := by simpa using List.find?_some hfind
  rw [← eq_string_of_isName hname]
  exact h entry (List.mem_of_find?_eq_some hfind)

end Mapping.MadeOf

end Routebook
