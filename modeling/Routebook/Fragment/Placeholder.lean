import Routebook.Error
import Routebook.Text.Replace
import Routebook.Yaml.Mapping

/-!
# Writing a value along a path

A path leads through nested mappings by the names of their fields.  A segment
names the field with that string as its key; if there is none, the first field
whose key has that text, such as the number `404`.

At the end of the path the value is written into the field, which is added if it
is not there.  If the path meets a string on the way, the value's text replaces
the last segment of the path inside that string.
-/

namespace Routebook.Fragment

/-- Whether a segment names the field under the given key. -/
def namesKey (entries : Mapping) (segment : String) (key : Value) : Bool :=
  if Mapping.has entries segment then key.isName segment
  else key.name? == some segment

/-- The value of the field that a segment names. -/
def fieldAt? (entries : Mapping) (segment : String) : Option Value :=
  (entries.find? fun entry => namesKey entries segment entry.1).map Prod.snd

/-- Write a value into the field that a segment names. -/
def setField (entries : Mapping) (segment : String) (value : Value) : Mapping :=
  Mapping.writeFirst (namesKey entries segment) value entries

/-- Write a value along the segments of a path, which is shown in messages. -/
def writeAlong (path : String) (value : Value) :
    List String → Mapping → Except PlaceholderFault Mapping
  | [], _ => .error (.emptyPath path)
  | [field], entries =>
    match fieldAt? entries field with
    | some _ => .ok (setField entries field value)
    | none => .ok (entries ++ [(.string field, value)])
  | segment :: next :: rest, entries =>
    match fieldAt? entries segment with
    | some (.mapping child) => do
      let child ← writeAlong path value (next :: rest) child
      return setField entries segment (.mapping child)
    | some (.string text) =>
      match value.text? with
      | some rendered =>
        let token := (next :: rest).getLast (by simp)
        .ok (setField entries segment (.string (Text.replaceAll token rendered text)))
      | none => .error (.splice value.kind path)
    | some other => .error (.blocked segment path other.kind)
    | none => .error (.absent segment path)

/-! ## Where a path writes -/

/-- Only a field with the text of a segment can be named by it. -/
theorem namesKey_eq_false {entries : Mapping} {segment : String} {key : Value}
    (h : key.name? ≠ some segment) : namesKey entries segment key = false := by
  rw [namesKey]
  split
  · apply Mapping.isName_eq_false
    rintro rfl
    exact h rfl
  · simpa using h

/-- A segment names no other field where it names a string key. -/
theorem namesKey_eq_isName {entries : Mapping} {segment : String}
    (h : Mapping.has entries segment) (key : Value) :
    namesKey entries segment key = key.isName segment := by
  rw [namesKey, if_pos h]

/-- A path that can be followed writes into the field that its first segment
names, or adds that field. -/
theorem writeAlong_eq_ok {path : String} {value : Value} {segments : List String}
    {entries result : Mapping} (h : writeAlong path value segments entries = .ok result) :
    (∃ written, result = setField entries (segments.headD "") written) ∨
      ∃ field, result = entries ++ [(.string field, value)] := by
  match segments with
  | [] => cases h
  | [field] =>
    rw [writeAlong] at h
    split at h
    · cases h
      exact .inl ⟨value, rfl⟩
    · cases h
      exact .inr ⟨field, rfl⟩
  | segment :: next :: rest =>
    rw [writeAlong] at h
    split at h
    · rename_i child _
      cases hchild : writeAlong path value (next :: rest) child with
      | error fault => rw [hchild] at h; cases h
      | ok written =>
        rw [hchild] at h
        cases h
        exact .inl ⟨.mapping written, rfl⟩
    · split at h
      · cases h
        exact .inl ⟨_, rfl⟩
      · cases h
    · cases h
    · cases h

end Routebook.Fragment
