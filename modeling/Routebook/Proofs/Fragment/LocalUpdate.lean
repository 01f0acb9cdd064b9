import Routebook.Proofs.Fragment.Walk

/-!
# Writing along a path is all or nothing

`writeAlong` gives the new mapping or a fault.  The same can be done in place, on a
mapping that is there all the time: `writeInPlace` goes down into the mapping and has
changed what it has changed when a fault comes up.  But a fault only comes up before
anything is written, so that the mapping is left as it was at every depth.

Whether a value can be written depends on where the segments before the last one lead,
and of the value only on whether it has a text.  What is written along a path into a
field is read there again, and it leaves no trace when another value is written along
the same path.
-/

namespace Routebook.Fragment

/-- A change of a mapping in place.  A failure leaves the mapping as it was when the
failure came up. -/
abbrev Change := ExceptT PlaceholderFault (StateM Mapping)

/-- Carry out a change: its outcome, and the mapping as it is then. -/
def Change.carryOut (change : Change Unit) (entries : Mapping) :
    Except PlaceholderFault Unit × Mapping :=
  (ExceptT.run change).run entries

/-- Carry out a change inside the mapping that a segment names.  What becomes of this
mapping stays, also after a failure. -/
def Change.inside (segment : String) (child : Mapping) (change : Change Unit) : Change Unit :=
  fun entries =>
    let (outcome, child) := change.carryOut child
    (outcome, setField entries segment (.mapping child))

/-- Write a value along the segments of a path in place. -/
def writeInPlace (path : String) (value : Value) : List String → Change Unit
  | [] => throw (.emptyPath path)
  | [field] => do
    match fieldAt? (← get) field with
    | some _ => modify (setField · field value)
    | none => modify (· ++ [(.string field, value)])
  | segment :: next :: rest => do
    match fieldAt? (← get) segment with
    | some (.mapping child) => (writeInPlace path value (next :: rest)).inside segment child
    | some (.string text) =>
      match value.text? with
      | some rendered =>
        let token := (next :: rest).getLast (List.cons_ne_nil next rest)
        modify (setField · segment (.string (Text.replaceAll token rendered text)))
      | none => throw (.splice value.kind path)
    | some other => throw (.blocked segment path other.kind)
    | none => throw (.absent segment path)

/-- Whether a value can be written behind a way: the way leads to a mapping, or the value
is a scalar and a text stands in the way. -/
def Writable (value : Value) (way : List String) (entries : Mapping) : Prop :=
  (∃ child, along? (.mapping entries) way = some (.mapping child)) ∨
    value.kind ∈ [.null, .boolean, .number, .string] ∧
      ∃ front text, front <+: way ∧ along? (.mapping entries) front = some (.string text)

variable {value : Value} {entries result child : Mapping} {segment field path : String}
  {way rest : List String}

/-! ## In place -/

theorem carryOut_get_bind (next : Mapping → Change Unit) (entries : Mapping) :
    Change.carryOut (get >>= next) entries = (next entries).carryOut entries :=
  rfl

theorem carryOut_modify (change : Mapping → Mapping) (entries : Mapping) :
    Change.carryOut (modify change) entries = (.ok (), change entries) :=
  rfl

theorem carryOut_throw (fault : PlaceholderFault) (entries : Mapping) :
    Change.carryOut (throw fault) entries = (.error fault, entries) :=
  rfl

theorem carryOut_inside (segment : String) (child : Mapping) (change : Change Unit)
    (entries : Mapping) :
    (change.inside segment child).carryOut entries =
      ((change.carryOut child).1, setField entries segment (.mapping (change.carryOut child).2)) :=
  rfl

/-- In place the mapping comes out as it does otherwise, or is left as it was. -/
theorem carryOut_writeInPlace (path : String) (value : Value) (segments : List String)
    (entries : Mapping) :
    (writeInPlace path value segments).carryOut entries =
      match writeAlong path value segments entries with
      | .ok result => (.ok (), result)
      | .error fault => (.error fault, entries) := by
  fun_induction writeAlong path value segments entries with
  | case1 entries => rw [writeInPlace, carryOut_throw]
  | case2 field entries old hfield => rw [writeInPlace, carryOut_get_bind, hfield, carryOut_modify]
  | case3 field entries hfield => rw [writeInPlace, carryOut_get_bind, hfield, carryOut_modify]
  | case4 segment next rest entries child hfield ih =>
    rw [writeInPlace, carryOut_get_bind, hfield]
    dsimp only
    rw [carryOut_inside, ih]
    -- A mapping inside that is left as it was is put where it stands.
    cases writeAlong path value (next :: rest) child with
    | error fault => exact congrArg _ (setField_eq_self hfield)
    | ok written => rfl
  | case5 segment next rest entries text hfield rendered hrendered =>
    rw [writeInPlace, carryOut_get_bind, hfield]
    dsimp only
    rw [hrendered, carryOut_modify]
  | case6 segment next rest entries text hfield hrendered =>
    rw [writeInPlace, carryOut_get_bind, hfield]
    dsimp only
    rw [hrendered, carryOut_throw]
  | case7 segment next rest entries other hmapping hstring hfield =>
    rw [writeInPlace, carryOut_get_bind, hfield]
    split
    · rename_i child heq
      exact absurd (Option.some.inj heq) (hmapping child)
    · rename_i text heq
      exact absurd (Option.some.inj heq) (hstring text)
    · rename_i found _ _ heq
      rw [carryOut_throw, ← Option.some.inj heq]
    · rename_i heq
      cases heq
  | case8 segment next rest entries hfield =>
    rw [writeInPlace, carryOut_get_bind, hfield, carryOut_throw]

/-! ## When it succeeds -/

/-- A field that a path goes on from can be written if it is a mapping in which the rest
of the path can be written, or a text if the value has one. -/
theorem isOk_newField_cons {next : String} {behind : List String} {old : Option Value} :
    (newField path value segment (next :: behind) old).isOk ↔
      (∃ child, old = some (.mapping child) ∧
        (writeAlong path value (next :: behind) child).isOk) ∨
      value.text?.isSome ∧ ∃ text, old = some (.string text) := by
  rw [Outcome.isOk_iff_exists]
  constructor
  · rintro ⟨new, hnew⟩
    rcases newField_eq_ok hnew with ⟨hnil, -⟩ | ⟨child, written, hold, hwritten, -⟩ |
      ⟨text, rendered, -, hold, hrendered, -⟩
    · exact absurd hnil (List.cons_ne_nil next behind)
    · exact .inl ⟨child, hold, Outcome.isOk_iff_exists.2 ⟨written, hwritten⟩⟩
    · exact .inr ⟨Option.isSome_iff_exists.2 ⟨rendered, hrendered⟩, text, hold⟩
  · rintro (⟨child, rfl, hchild⟩ | ⟨hvalue, text, rfl⟩)
    · obtain ⟨written, hwritten⟩ := Outcome.isOk_iff_exists.1 hchild
      refine ⟨.mapping written, ?_⟩
      rw [newField, hwritten, Except.map]
    · obtain ⟨rendered, hrendered⟩ := Option.isSome_iff_exists.1 hvalue
      refine ⟨.string (Text.replaceAll ((next :: behind).getLast (List.cons_ne_nil next behind))
        rendered text), ?_⟩
      rw [newField, hrendered]

theorem isOk_writeAlong_cons :
    (writeAlong path value (segment :: rest ++ [field]) entries).isOk ↔
      (∃ child, fieldAt? entries segment = some (.mapping child) ∧
        (writeAlong path value (rest ++ [field]) child).isOk) ∨
      value.text?.isSome ∧ ∃ text, fieldAt? entries segment = some (.string text) := by
  obtain ⟨next, behind, hbehind⟩ := List.exists_cons_of_ne_nil (List.concat_ne_nil field rest)
  rw [List.cons_append, writeAlong_cons, hbehind]
  exact (Outcome.isOk_map _ _).trans isOk_newField_cons

theorem writable_cons :
    Writable value (segment :: rest) entries ↔
      (∃ child, fieldAt? entries segment = some (.mapping child) ∧ Writable value rest child) ∨
      value.text?.isSome ∧ ∃ text, fieldAt? entries segment = some (.string text) := by
  rw [Value.isSome_text?_iff]
  constructor
  · rintro (⟨last, hlast⟩ | ⟨hkind, front, text, hfront, htext⟩)
    · obtain ⟨child, hchild, hlast⟩ := exists_field_of_along? hlast
      exact .inl ⟨child, hchild, .inl ⟨last, hlast⟩⟩
    · rcases List.prefix_cons_iff.1 hfront with rfl | ⟨front, rfl, hinside⟩
      · cases htext
      · rw [along?_cons] at htext
        obtain ⟨found, hfound, htext⟩ := Option.bind_eq_some_iff.1 htext
        rcases exists_mapping_or_eq_nil htext with ⟨child, rfl⟩ | ⟨-, rfl⟩
        · exact .inl ⟨child, hfound, .inr ⟨hkind, front, text, hinside, htext⟩⟩
        · exact .inr ⟨hkind, text, hfound⟩
  · have hinside : ∀ {found}, fieldAt? entries segment = some found → ∀ front,
        along? (.mapping entries) (segment :: front) = along? found front := fun hfound front => by
      rw [along?_cons, hfound, Option.bind_some]
    rintro (⟨child, hchild, ⟨last, hlast⟩ | ⟨hkind, front, text, hfront, htext⟩⟩ |
      ⟨hkind, text, htext⟩)
    · exact .inl ⟨last, (hinside hchild rest).trans hlast⟩
    · exact .inr ⟨hkind, segment :: front, text, List.cons_prefix_cons.2 ⟨rfl, hfront⟩,
        (hinside hchild front).trans htext⟩
    · exact .inr ⟨hkind, [segment], text, List.prefix_append [segment] rest, hinside htext []⟩

theorem isOk_writeAlong_iff :
    (writeAlong path value (way ++ [field]) entries).isOk ↔ Writable value way entries := by
  induction way generalizing entries with
  | nil =>
    rw [List.nil_append, writeAlong_cons, newField]
    exact iff_of_true rfl (.inl ⟨entries, rfl⟩)
  | cons segment rest ih =>
    rw [isOk_writeAlong_cons, writable_cons]
    simp only [ih]

/-! ## Reading and writing again -/

/-- What has been written along a way to a mapping is read there. -/
theorem along?_writeAlong (hrun : writeAlong path value (way ++ [field]) entries = .ok result)
    (hway : along? (.mapping entries) way = some (.mapping child)) :
    along? (.mapping result) (way ++ [field]) = some value := by
  cases localChange_of_writeAlong hrun with
  | field hput hplace =>
    rw [along?_append_of_eq hplace.along?_eq.2, along?_cons, put_iff.1 hput,
      fieldAt?_putField_self]
    rfl
  | text front hfront hrendered hreplaced hplace =>
    obtain ⟨behind, rfl⟩ := hfront
    rw [along?_append_of_eq hplace.along?_eq.1] at hway
    rcases exists_mapping_or_eq_nil hway with ⟨_, hmapping⟩ | ⟨-, hmapping⟩ <;> cases hmapping

theorem writeAlong_cons_of_mapping (hfield : fieldAt? entries segment = some (.mapping child)) :
    writeAlong path value (segment :: rest ++ [field]) entries =
      (writeAlong path value (rest ++ [field]) child).map
        fun written => putField entries segment (.mapping written) := by
  obtain ⟨next, behind, hbehind⟩ := List.exists_cons_of_ne_nil (List.concat_ne_nil field rest)
  rw [List.cons_append, writeAlong_cons, hbehind, hfield, newField]
  cases writeAlong path value (next :: behind) child <;> rfl

/-- A value that is written along a way to a mapping is overwritten without a trace. -/
theorem writeAlong_writeAlong (hrun : writeAlong path value (way ++ [field]) entries = .ok result)
    (hway : along? (.mapping entries) way = some (.mapping child)) (other : Value) :
    writeAlong path other (way ++ [field]) result =
      writeAlong path other (way ++ [field]) entries := by
  induction way generalizing entries result with
  | nil =>
    rw [List.nil_append, writeAlong_cons, newField] at hrun ⊢
    cases hrun
    rw [writeAlong_cons, newField, Except.map, Except.map, putField_putField_self]
  | cons segment rest ih =>
    obtain ⟨inner, hinner, hway⟩ := exists_field_of_along? hway
    rw [writeAlong_cons_of_mapping hinner, Outcome.map_eq_ok] at hrun
    obtain ⟨written, hwritten, rfl⟩ := hrun
    rw [writeAlong_cons_of_mapping (fieldAt?_putField_self entries segment (.mapping written)),
      writeAlong_cons_of_mapping hinner, ih hwritten hway]
    simp only [putField_putField_self]

/-- Writing a value along a path changes the mapping at one place, or not at all. -/
theorem writeAlong_local (path : String) (value : Value) (way : List String) (field : String)
    (entries : Mapping) :
    ((writeAlong path value (way ++ [field]) entries).isOk ↔ Writable value way entries) ∧
    (∀ fault, writeAlong path value (way ++ [field]) entries = .error fault →
      (writeInPlace path value (way ++ [field])).carryOut entries = (.error fault, entries)) ∧
    ∀ result, writeAlong path value (way ++ [field]) entries = .ok result →
      (writeInPlace path value (way ++ [field])).carryOut entries = (.ok (), result) ∧
      LocalChange value way field entries result ∧
      ∀ child, along? (.mapping entries) way = some (.mapping child) →
        along? (.mapping result) (way ++ [field]) = some value ∧
        ∀ other, ∃ again, writeAlong path other (way ++ [field]) result = .ok again ∧
          writeAlong path other (way ++ [field]) entries = .ok again := by
  have hplace := carryOut_writeInPlace path value (way ++ [field]) entries
  refine ⟨isOk_writeAlong_iff, ?_, ?_⟩
  · intro fault hrun
    rw [hplace, hrun]
  · intro result hrun
    refine ⟨by rw [hplace, hrun], localChange_of_writeAlong hrun, fun child hway => ?_⟩
    refine ⟨along?_writeAlong hrun hway, fun other => ?_⟩
    have hwritable : (writeAlong path other (way ++ [field]) entries).isOk :=
      isOk_writeAlong_iff.2 (.inl ⟨child, hway⟩)
    obtain ⟨again, hagain⟩ := Outcome.isOk_iff_exists.1 hwritable
    exact ⟨again, (writeAlong_writeAlong hrun hway other).trans hagain, hagain⟩

/-- Two keys with one text. -/
def statusEntries : Mapping :=
  [(.number (.int 404), .string "No THING"),
    (.string "404", .mapping [(.string "note", .string "No THING")])]

/-- The string key takes the path, the text in the way takes the value in, a path that
leads nowhere leaves both keys alone, and a field is added inside the string key. -/
theorem writeAlong_local_status :
    LocalChange (.string "user") ["404", "note"] "THING" statusEntries
        [(.number (.int 404), .string "No THING"),
          (.string "404", .mapping [(.string "note", .string "No user")])] ∧
      (writeInPlace "404|text|en" (.string "user") ["404", "text", "en"]).carryOut statusEntries =
        (.error (.absent "text" "404|text|en"), statusEntries) ∧
      along? (.mapping [(.number (.int 404), .string "No THING"),
          (.string "404", .mapping [(.string "note", .string "No THING"),
            (.string "code", .sequence [])])]) ["404", "code"] = some (.sequence []) := by
  refine ⟨?_, ?_, ?_⟩
  · exact ((writeAlong_local "404|note|THING" (.string "user") ["404", "note"] "THING"
      statusEntries).2.2 _ rfl).2.1
  · exact (writeAlong_local "404|text|en" (.string "user") ["404", "text"] "en"
      statusEntries).2.1 _ rfl
  · exact (((writeAlong_local "404|code" (.sequence []) ["404"] "code"
      statusEntries).2.2 _ rfl).2.2 _ rfl).1

end Routebook.Fragment
