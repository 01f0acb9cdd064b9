import Routebook.Proofs.Fragment.OwnFields

/-!
# The field that a path starts at

A path touches one field of the mapping that it is written into, the one that its
first segment names.  What it writes there depends on nothing but the value of this
field so far: `newField` is that value as a function of the old one, and `putField`
writes it or adds the field.  `fillPath_eq` puts the step together from the two.

Two segments never name one field, so what is written at one of them is not seen at
the other.
-/

namespace Routebook.Fragment

/-- The entry that a segment names. -/
def entryFor? (entries : Mapping) (segment : String) : Option (Value × Value) :=
  entries.find? fun entry => namesKey entries segment entry.1

/-- Write into the field that a segment names, or add it. -/
def putField (entries : Mapping) (segment : String) (value : Value) : Mapping :=
  if (entryFor? entries segment).isSome then setField entries segment value
  else entries ++ [(.string segment, value)]

/-- The entry that is there when a field has been put. -/
def putEntry (entries : Mapping) (segment : String) (value : Value) : Value × Value :=
  (((entryFor? entries segment).map Prod.fst).getD (.string segment), value)

/-- The value that a path makes of the value of the field that its first segment
names. -/
def newField (path : String) (value : Value) (segment : String) :
    List String → Option Value → Except PlaceholderFault Value
  | [], _ => .ok value
  | next :: rest, some (.mapping child) =>
    (writeAlong path value (next :: rest) child).map .mapping
  | next :: rest, some (.string text) =>
    match value.text? with
    | some rendered =>
      let token := (next :: rest).getLast (List.cons_ne_nil next rest)
      .ok (.string (Text.replaceAll token rendered text))
    | none => .error (.splice value.kind path)
  | _ :: _, some other => .error (.blocked segment path other.kind)
  | _ :: _, none => .error (.absent segment path)

variable {user result entries entries' : Mapping} {segment other name path : String} {value : Value}

theorem fieldAt?_eq (entries : Mapping) (segment : String) :
    fieldAt? entries segment = (entryFor? entries segment).map Prod.snd :=
  rfl

theorem writeAlong_cons (path : String) (value : Value) (segment : String) (rest : List String)
    (entries : Mapping) :
    writeAlong path value (segment :: rest) entries =
      (newField path value segment rest (fieldAt? entries segment)).map
        (putField entries segment) := by
  have hput : ∀ old new, fieldAt? entries segment = some old →
      putField entries segment new = setField entries segment new := by
    intro old new hfield
    rw [fieldAt?_eq, Option.map_eq_some_iff] at hfield
    obtain ⟨entry, hentry, -⟩ := hfield
    rw [putField, hentry]
    rfl
  have hadd : ∀ new, fieldAt? entries segment = none →
      putField entries segment new = entries ++ [(.string segment, new)] := by
    intro new hfield
    rw [fieldAt?_eq, Option.map_eq_none_iff] at hfield
    rw [putField, hfield]
    rfl
  cases rest with
  | nil =>
    rw [writeAlong, newField]
    split
    · rename_i hfield
      rw [Except.map, hput _ _ hfield]
    · rename_i hfield
      rw [Except.map, hadd _ hfield]
  | cons next rest =>
    rw [writeAlong]
    generalize fieldAt? entries segment = found at hput
    split
    · rename_i child
      rw [newField]
      cases writeAlong path value (next :: rest) child with
      | error fault => rfl
      | ok written => exact congrArg Except.ok (hput _ _ rfl).symm
    · rw [newField]
      cases value.text? with
      | some rendered => exact congrArg Except.ok (hput _ _ rfl).symm
      | none => rfl
    · rename_i hmapping hstring
      rw [newField]
      · rfl
      · exact hmapping
      · exact hstring
    · rfl

/-- What a path makes of a field: the value itself at its end, what it makes inside a
mapping, or a text with the value in place of its last segment. -/
theorem newField_eq_ok {rest : List String} {old : Option Value} {new : Value}
    (h : newField path value segment rest old = .ok new) :
    (rest = [] ∧ new = value) ∨
      (∃ child written, old = some (.mapping child) ∧
        writeAlong path value rest child = .ok written ∧ new = .mapping written) ∨
      ∃ (text rendered : String) (hrest : rest ≠ []), old = some (.string text) ∧
        value.text? = some rendered ∧
        new = .string (Text.replaceAll (rest.getLast hrest) rendered text) := by
  rw [newField.eq_def] at h
  split at h
  · cases h
    exact .inl ⟨rfl, rfl⟩
  · obtain ⟨written, hwritten, rfl⟩ := Outcome.map_eq_ok.1 h
    exact .inr (.inl ⟨_, written, rfl, hwritten, rfl⟩)
  · split at h
    · rename_i hrendered
      cases h
      exact .inr (.inr ⟨_, _, List.cons_ne_nil _ _, rfl, hrendered, rfl⟩)
    · cases h
  · cases h
  · cases h

/-! ## Which field a segment names -/

theorem name?_of_namesKey {key : Value} (h : namesKey entries segment key) :
    key.name? = some segment := by
  by_contra hname
  rw [namesKey_eq_false hname] at h
  cases h

/-- Two segments name different fields. -/
theorem namesKey_of_ne {key : Value} (hne : other ≠ segment)
    (h : namesKey entries segment key) : namesKey entries' other key = false := by
  apply namesKey_eq_false
  rw [name?_of_namesKey h]
  exact fun heq => hne (Option.some.inj heq).symm

theorem namesKey_string (entries : Mapping) (name : String) :
    namesKey entries name (.string name) = true := by
  simp [namesKey, Value.isName, Value.name?, Value.text?]

/-- Which key a segment names depends on the other keys only as far as the segment is
one of them. -/
theorem namesKey_congr (h : Mapping.has entries segment = Mapping.has entries' segment)
    (key : Value) : namesKey entries segment key = namesKey entries' segment key := by
  rw [namesKey, namesKey, h]

/-- Where a string is a key, it is what the segment names. -/
theorem entryFor?_eq_find? {name : String} (h : Mapping.has entries name) :
    entryFor? entries name = entries.find? fun entry => entry.1.isName name := by
  rw [entryFor?]
  simp only [namesKey_eq_isName h]

theorem find?_isName_eq_none {name : String} (h : Mapping.has entries name = false) :
    entries.find? (fun entry => entry.1.isName name) = none := by
  simpa [Mapping.has] using h

/-! ## What is found after a field has been put -/

/-- A field is put in the place of the entry that its segment names, or at the
end. -/
theorem putField_cases (entries : Mapping) (segment : String) (value : Value) :
    (entryFor? entries segment = none ∧
        putField entries segment value = entries ++ [(.string segment, value)]) ∨
      ∃ key old, entryFor? entries segment = some (key, old) ∧
        putField entries segment value =
          Mapping.writeFirst (namesKey entries segment) value entries := by
  cases hentry : entryFor? entries segment with
  | none => exact .inl ⟨rfl, by rw [putField, hentry]; rfl⟩
  | some entry => exact .inr ⟨entry.1, entry.2, rfl, by rw [putField, hentry]; rfl⟩

theorem hasKey_putField {key : Value} (h : Mapping.hasKey entries key)
    (segment : String) (value : Value) : Mapping.hasKey (putField entries segment value) key := by
  rcases putField_cases entries segment value with ⟨-, hput⟩ | ⟨-, -, -, hput⟩
  · rw [hput, Mapping.hasKey_append, h, Bool.true_or]
  · rwa [hput, Mapping.hasKey_writeFirst]

theorem get?_putField_of_ne (hne : name ≠ segment) (entries : Mapping) (value : Value) :
    Mapping.get? (putField entries segment value) name = Mapping.get? entries name := by
  have hsegment : (Value.string segment).isName name = false :=
    Mapping.isName_eq_false fun heq => hne (Value.string.inj heq).symm
  rcases putField_cases entries segment value with ⟨-, hput⟩ | ⟨-, -, -, hput⟩
  · rw [hput, Mapping.get?_append_cons, hsegment]
    simp [Mapping.get?]
  · rw [hput, Mapping.get?_writeFirst]
    exact namesKey_of_ne hne.symm (namesKey_string entries name)

theorem has_putField_of_ne (hne : other ≠ segment) (entries : Mapping) (value : Value) :
    Mapping.has (putField entries segment value) other = Mapping.has entries other := by
  rw [← Mapping.isSome_get?, get?_putField_of_ne hne, Mapping.isSome_get?]

theorem entryFor?_putField_of_ne (hne : other ≠ segment) (entries : Mapping) (value : Value) :
    entryFor? (putField entries segment value) other = entryFor? entries other := by
  have hnames : ∀ key, namesKey (putField entries segment value) other key =
      namesKey entries other key := namesKey_congr (has_putField_of_ne hne entries value)
  rw [entryFor?, entryFor?]
  simp only [hnames]
  rcases putField_cases entries segment value with ⟨-, hput⟩ | ⟨-, -, -, hput⟩
  · have hsegment : namesKey entries other (.string segment) = false :=
      namesKey_of_ne hne (namesKey_string entries segment)
    rw [hput, List.find?_append]
    simp [hsegment]
  · rw [hput]
    have hapart : ∀ key, namesKey entries segment key → namesKey entries other key = false :=
      fun key hkey => namesKey_of_ne hne hkey
    exact Mapping.find?_writeFirst hapart value entries

theorem entryFor?_putField_self (entries : Mapping) (segment : String) (value : Value) :
    entryFor? (putField entries segment value) segment =
      some (putEntry entries segment value) := by
  rcases putField_cases entries segment value with ⟨hentry, hput⟩ | ⟨key, old, hentry, hput⟩
  · have hnone : entries.find? (fun entry => entry.1.isName segment) = none := by
      cases hhas : Mapping.has entries segment with
      | true => rw [← entryFor?_eq_find? hhas, hentry]
      | false => exact find?_isName_eq_none hhas
    have hname : (Value.string segment).isName segment := by simp [Value.isName]
    have hadded : Mapping.has (putField entries segment value) segment := by
      simp [hput, Mapping.has, hname]
    rw [entryFor?_eq_find? hadded]
    simp [hput, List.find?_append, hnone, putEntry, hentry, hname]
  · have hnames : ∀ key, namesKey (putField entries segment value) segment key =
        namesKey entries segment key :=
      namesKey_congr (by rw [hput, Mapping.has_writeFirst])
    rw [entryFor?]
    simp only [hnames]
    rw [hput, putEntry, hentry]
    exact Mapping.find?_writeFirst_self hentry value

theorem fieldAt?_putField_of_ne (hne : other ≠ segment) (entries : Mapping) (value : Value) :
    fieldAt? (putField entries segment value) other = fieldAt? entries other := by
  rw [fieldAt?_eq, entryFor?_putField_of_ne hne, fieldAt?_eq]

theorem fieldAt?_putField_self (entries : Mapping) (segment : String) (value : Value) :
    fieldAt? (putField entries segment value) segment = some value := by
  rw [fieldAt?_eq, entryFor?_putField_self]
  rfl

/-! ## A step along a path -/

theorem segments_eq_cons (path : String) :
    Text.segments '|' path = start path :: (Text.segments '|' path).tail := by
  have hne : Text.segments '|' path ≠ [] := by
    simpa [Text.segments] using Text.cut_ne_nil '|' path.toList
  obtain ⟨first, rest, hsegments⟩ := List.exists_cons_of_ne_nil hne
  rw [start, hsegments]
  rfl

theorem fillPath_eq (contributed : List (String × Bool)) (value : Value) (user : Mapping)
    (path : String) :
    fillPath contributed value user path =
      if isOverridden contributed (start path) then .ok user
      else ((newField path value (start path) (Text.segments '|' path).tail
        (fieldAt? user (start path))).mapError .placeholder).map (putField user (start path)) := by
  rw [fillPath]
  change (if isOverridden contributed (start path) then _ else _) = _
  rw [segments_eq_cons, writeAlong_cons, List.tail_cons]
  congr 1
  cases newField path value (start path) (Text.segments '|' path).tail
    (fieldAt? user (start path)) <;> rfl

/-- A path that is carried out leaves the mapping as it is or puts one field. -/
theorem fillPath_eq_ok {contributed : List (String × Bool)}
    (hrun : fillPath contributed value user path = .ok result) :
    result = user ∨ ∃ written, result = putField user (start path) written := by
  rw [fillPath_eq] at hrun
  split at hrun
  · cases hrun
    exact .inl rfl
  · obtain ⟨written, -, rfl⟩ := Outcome.map_eq_ok.1 hrun
    exact .inr ⟨written, rfl⟩

/-- Writing along a path fails for the sake of the path only. -/
theorem exists_of_fillPath_eq_error {contributed : List (String × Bool)} {error : Error}
    (hrun : fillPath contributed value user path = .error error) :
    ∃ fault, error = .placeholder fault := by
  rw [fillPath] at hrun
  split at hrun
  · cases hrun
  · obtain ⟨fault, -, rfl⟩ := Outcome.mapError_eq_error.1 hrun
    exact ⟨fault, rfl⟩

theorem hasKey_fillPath {contributed : List (String × Bool)} {key : Value}
    (hrun : fillPath contributed value user path = .ok result) (h : Mapping.hasKey user key) :
    Mapping.hasKey result key := by
  rcases fillPath_eq_ok hrun with rfl | ⟨written, rfl⟩
  · exact h
  · exact hasKey_putField h _ _

theorem get?_fillPath {contributed : List (String × Bool)} (hne : start path ≠ name)
    (hrun : fillPath contributed value user path = .ok result) :
    Mapping.get? result name = Mapping.get? user name := by
  rcases fillPath_eq_ok hrun with rfl | ⟨written, rfl⟩
  · rfl
  · exact get?_putField_of_ne hne.symm _ _

end Routebook.Fragment
