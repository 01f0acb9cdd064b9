import Routebook.Proofs.Fragment.Slot
import Routebook.Proofs.Text.Replaced

/-!
# Where a path leads

The segments of a path lead from a mapping to a value inside it, each one through the
field that it names.  A path can be written along in two ways only: the segments
before the last one lead to a mapping, in which the last one is put as a field, or
some of them lead to a text, in which the last one is replaced.  In both ways the
same segments lead to what has been written, and all else in the mapping stays as it is:
`LocalChange` says so of every entry at every depth.

No segment is treated in a way of its own on account of its text, be it empty.
-/

namespace Routebook.Fragment

/-- The value that segments lead to, through nested mappings. -/
def along? : Value → List String → Option Value
  | value, [] => some value
  | .mapping entries, segment :: rest => (fieldAt? entries segment).bind (along? · rest)
  | _, _ :: _ => none

/-- How a mapping changes when a value is written along segments. -/
inductive WrittenAlong (value : Value) (segments : List String) (entries result : Mapping) :
    Prop
  | field (way : List String) (field : String) {child : Mapping}
      (hsegments : segments = way ++ [field])
      (hbefore : along? (.mapping entries) way = some (.mapping child))
      (hafter : along? (.mapping result) way = some (.mapping (putField child field value)))
  | text (way : List String) {behind : List String} {text rendered : String}
      (hsegments : segments = way ++ behind) (hbehind : behind ≠ [])
      (hbefore : along? (.mapping entries) way = some (.string text))
      (hrendered : value.text? = some rendered)
      (hafter : along? (.mapping result) way =
        some (.string (Text.replaceAll (behind.getLast hbehind) rendered text)))

/-- Whether two values are the same but for what segments lead to, which is `old` in the
one and `new` in the other. -/
inductive SameBut (old new : Value) : List String → Value → Value → Prop
  | here : SameBut old new [] old new
  | inside {segment : String} {rest : List String} {before after : Mapping}
      {key child child' : Value} (hnames : Names segment before key after)
      (hchild : SameBut old new rest child child') :
      SameBut old new (segment :: rest) (.mapping (before ++ (key, child) :: after))
        (.mapping (before ++ (key, child') :: after))

/-- How a mapping changes when a value is written into the field behind a way, and that
nothing else changes. -/
inductive LocalChange (value : Value) (way : List String) (field : String)
    (entries result : Mapping) : Prop
  /-- The way leads to a mapping, in which the field has been put. -/
  | field {child child' : Mapping} (hput : Put field value child child')
      (hplace : SameBut (.mapping child) (.mapping child') way (.mapping entries)
        (.mapping result))
  /-- A text stands in the way, in which the name of the field has been replaced. -/
  | text (front : List String) {text rendered text' : String} (hfront : front <+: way)
      (hrendered : value.text? = some rendered)
      (hreplaced : Text.Replaced field.toList rendered.toList text.toList text'.toList)
      (hplace : SameBut (.string text) (.string text') front (.mapping entries)
        (.mapping result))

variable {value start finish old new : Value} {entries result child : Mapping}
  {segment field : String} {segments way front behind : List String}

theorem along?_cons (entries : Mapping) (segment : String) (rest : List String) :
    along? (.mapping entries) (segment :: rest) =
      (fieldAt? entries segment).bind (along? · rest) :=
  rfl

/-- Only a mapping leads on. -/
theorem exists_mapping_or_eq_nil {found : Value} (h : along? start way = some found) :
    (∃ entries, start = .mapping entries) ∨ way = [] ∧ start = found := by
  cases way with
  | nil => exact .inr ⟨rfl, by cases start <;> exact Option.some.inj h⟩
  | cons segment rest =>
    cases start with
    | mapping entries => exact .inl ⟨entries, rfl⟩
    | _ => cases h

/-- Where more segments lead on, those before lead to a mapping. -/
theorem along?_append (h : behind ≠ []) {found : Value}
    (hfound : along? (.mapping entries) (front ++ behind) = some found) :
    ∃ child, along? (.mapping entries) front = some (.mapping child) ∧
      along? (.mapping child) behind = some found := by
  induction front generalizing entries with
  | nil => exact ⟨entries, rfl, hfound⟩
  | cons segment rest ih =>
    rw [List.cons_append, along?_cons] at hfound
    obtain ⟨next, hnext, hfound⟩ := Option.bind_eq_some_iff.1 hfound
    rcases exists_mapping_or_eq_nil hfound with ⟨child, rfl⟩ | ⟨hnil, -⟩
    · rw [along?_cons, hnext]
      exact ih hfound
    · exact absurd hnil (List.append_ne_nil_of_right_ne_nil rest h)

theorem along?_append_of_eq {found : Value} (h : along? start way = some found)
    (behind : List String) : along? start (way ++ behind) = along? found behind := by
  induction way generalizing start with
  | nil =>
    obtain rfl : start = found := by cases start <;> exact Option.some.inj h
    rfl
  | cons segment rest ih =>
    rcases exists_mapping_or_eq_nil h with ⟨entries, rfl⟩ | ⟨hnil, -⟩
    · rw [along?_cons] at h
      obtain ⟨next, hnext, h⟩ := Option.bind_eq_some_iff.1 h
      rw [List.cons_append, along?_cons, hnext, Option.bind_some, ih h]
    · cases hnil

/-- A way to a mapping goes through mappings. -/
theorem exists_field_of_along? {last : Mapping}
    (h : along? (.mapping entries) (segment :: way) = some (.mapping last)) :
    ∃ child, fieldAt? entries segment = some (.mapping child) ∧
      along? (.mapping child) way = some (.mapping last) := by
  rw [along?_cons] at h
  obtain ⟨found, hfound, h⟩ := Option.bind_eq_some_iff.1 h
  rcases exists_mapping_or_eq_nil h with ⟨child, rfl⟩ | ⟨-, rfl⟩
  · exact ⟨child, hfound, h⟩
  · exact ⟨last, hfound, h⟩

theorem SameBut.along?_eq (h : SameBut old new way start finish) :
    along? start way = some old ∧ along? finish way = some new := by
  induction h with
  | here => exact ⟨rfl, rfl⟩
  | inside hnames _ ih =>
    rw [along?_cons, along?_cons, hnames.fieldAt?_eq, hnames.fieldAt?_eq]
    exact ih

/-- What changes inside a field changes behind the segment that names it. -/
theorem SameBut.cons (hfield : fieldAt? entries segment = some start)
    (h : SameBut old new way start finish) :
    SameBut old new (segment :: way) (.mapping entries)
      (.mapping (putField entries segment finish)) := by
  obtain ⟨before, key, after, hnames, rfl⟩ := exists_names hfield
  rw [hnames.putField_eq]
  exact .inside hnames h

theorem LocalChange.cons {written : Mapping}
    (hfield : fieldAt? entries segment = some (.mapping child))
    (h : LocalChange value way field child written) :
    LocalChange value (segment :: way) field entries
      (putField entries segment (.mapping written)) := by
  cases h with
  | field hput hplace => exact .field hput (hplace.cons hfield)
  | text front hfront hrendered hreplaced hplace =>
    exact .text (segment :: front) (List.cons_prefix_cons.2 ⟨rfl, hfront⟩) hrendered hreplaced
      (hplace.cons hfield)

/-- Writing along segments changes one place. -/
theorem localChange_of_writeAlong {path : String}
    (hrun : writeAlong path value (way ++ [field]) entries = .ok result) :
    LocalChange value way field entries result := by
  induction way generalizing entries result with
  | nil =>
    rw [List.nil_append, writeAlong_cons, newField] at hrun
    cases hrun
    exact .field (put_iff.2 rfl) .here
  | cons segment rest ih =>
    rw [List.cons_append, writeAlong_cons, Outcome.map_eq_ok] at hrun
    obtain ⟨new, hnew, rfl⟩ := hrun
    rcases newField_eq_ok hnew with ⟨hnil, -⟩ | ⟨child, written, hfield, hwritten, rfl⟩ |
      ⟨text, rendered, hrest, hfield, hrendered, rfl⟩
    · exact absurd hnil (List.concat_ne_nil field rest)
    · exact (ih hwritten).cons hfield
    · have hlast : (rest ++ [field]).getLast hrest = field := List.getLast_concat
      rw [hlast]
      exact .text [segment] (List.prefix_append [segment] rest) hrendered
        (Text.replaced_iff.2 rfl) (SameBut.here.cons hfield)

/-- A value is written along segments in one of the two ways, or not at all. -/
theorem writtenAlong_of_writeAlong {path : String}
    (hrun : writeAlong path value segments entries = .ok result) :
    WrittenAlong value segments entries result := by
  rcases List.eq_nil_or_concat' segments with rfl | ⟨way, field, rfl⟩
  · cases hrun
  · cases localChange_of_writeAlong hrun with
    | field hput hplace =>
      obtain rfl := put_iff.1 hput
      exact .field way field rfl hplace.along?_eq.1 hplace.along?_eq.2
    | text front hfront hrendered hreplaced hplace =>
      obtain rfl := Text.replaced_iff.1 hreplaced
      obtain ⟨rest, rfl⟩ := hfront
      have hplaces := hplace.along?_eq
      refine .text front (List.append_assoc front rest [field]) (List.concat_ne_nil field rest)
        hplaces.1 hrendered ?_
      rw [List.getLast_concat]
      exact hplaces.2

end Routebook.Fragment
